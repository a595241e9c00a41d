import ControlStore.Proofs.DocumentOrder
import ControlStore.Proofs.HeldDocuments
import ControlStore.Proofs.OpcodeTable
import ControlStore.Proofs.Utf8Order

set_option autoImplicit false

/-!
Texts whose documents differ in the order of members are loaded alike. What the order decides is
gone once a document is read: opcodes and defaults count in the order of their names.
-/
namespace ControlStore

namespace Document

open Json (Tree)

/-! ### Loading -/

theorem LikeState.state_eq {first second : StateEntry} (like : LikeState first second) :
    second.state = first.state := by
  rw [StateEntry.state, StateEntry.state, like.name, like.control,
    bind_congr_rel (fun _ _ here => here.transition) like.next]

theorem LikeState.isUnusable_eq {first second : StateEntry} (like : LikeState first second) :
    second.isUnusable = first.isUnusable :=
  any_congr_rel (fun _ _ here => congrArg Option.isNone here.transition) like.next

theorem Like.load_eq {first second : Document} (like : Like first second) :
    second.load = first.load := by
  have schema : second.schema = first.schema := by
    rw [Document.schema, Document.schema, like.geometry, like.opcodes, like.defaults]
  have states : second.states.map (·.state) = first.states.map (·.state) :=
    map_congr_forall₂ (fun _ _ here => here.state_eq) like.states
  have flags : second.states.map (·.isUnusable) = first.states.map (·.isUnusable) :=
    map_congr_forall₂ (fun _ _ here => here.isUnusable_eq) like.states
  have warnings (document : Document) : document.states.countP (·.isUnusable) =
      (document.states.map (·.isUnusable)).countP id := by
    rw [List.countP_map]
    rfl
  rw [load, load, schema, program, program, states, warnings, warnings, flags]

/-- The opcodes of a loaded document stand in the order of the bytes of their symbols. -/
theorem opcodes_ascending {document : Document} {loaded : Loaded}
    (success : document.load = .ok loaded) :
    loaded.schema.opcodes.Pairwise fun first second =>
      first.symbol.toUTF8.data.toList < second.symbol.toUTF8.data.toList := by
  obtain ⟨schema, built, same⟩ := bind_eq_ok_iff.mp success
  cases same
  obtain ⟨bare, declared, defaulted⟩ := bind_eq_ok_iff.mp built
  have opcodes : schema.opcodes = document.opcodes.entries.map Opcode.ofEntry :=
    (Schema.opcodes_withDefaults defaulted).trans (Schema.build_eq_ok_iff.mp declared).2.2.1
  rw [opcodes, List.pairwise_map]
  exact document.opcodes.ascending.imp toUTF8_lt

/-- A document that one of two reordered trees gives, the other gives as well. -/
theorem Holds.exists_reads {text text' : List Char} {tree tree' : Tree} (holds : Holds text tree)
    (holds' : Holds text' tree') (reordered : tree.Reordered tree') {document : Document}
    (reads : Reads text document) :
    ∃ document', Reads text' document' ∧ document'.load = document.load := by
  obtain ⟨document', found, like⟩ := ofTree_unordered reordered document (holds.reads_iff.mp reads)
  exact ⟨document', holds'.reads_iff.mpr found, like.load_eq⟩

/-! ### A small document

Two opcodes and a state with one clause, and the same with the members of every map turned round.
-/
namespace Turned

open Json (Text Lexeme)

def text : List Char :=
  ("\x7b\x22opcodes\x22:\x7b\x22NOP\x22:0,\x22ADD\x22:1\x7d,\x22states\x22:[\x7b\x22name\x22:" ++
    "\x22A\x22,\x22next\x22:[\x7b\x22zero\x22:true,\x22state\x22:\x22A\x22\x7d]\x7d]\x7d").toList

def turned : List Char :=
  ("\x7b\x22states\x22:[\x7b\x22next\x22:[\x7b\x22state\x22:\x22A\x22,\x22zero\x22:true\x7d]," ++
    "\x22name\x22:\x22A\x22\x7d],\x22opcodes\x22:\x7b\x22ADD\x22:1,\x22NOP\x22:0\x7d\x7d").toList

def word (content : String) : Text := ⟨content.toList, 4⟩

/-- The lexemes of a map of two members. -/
def pairLexemes (first second : String × List Lexeme) : List Lexeme :=
  [.openMap, .text (word first.1), .colon] ++ first.2 ++ [.comma, .text (word second.1), .colon] ++
    second.2 ++ [.closeMap]

def lexemes : List Lexeme :=
  pairLexemes ("opcodes", pairLexemes ("NOP", [.number ['0']]) ("ADD", [.number ['1']]))
    ("states", [.openList] ++ pairLexemes ("name", [.text (word "A")])
      ("next", [.openList] ++ pairLexemes ("zero", [.flag true]) ("state", [.text (word "A")]) ++
        [.closeList]) ++ [.closeList])

def turnedLexemes : List Lexeme :=
  pairLexemes
    ("states", [.openList] ++ pairLexemes
      ("next", [.openList] ++ pairLexemes ("state", [.text (word "A")]) ("zero", [.flag true]) ++
        [.closeList]) ("name", [.text (word "A")]) ++ [.closeList])
    ("opcodes", pairLexemes ("ADD", [.number ['1']]) ("NOP", [.number ['0']]))

/-- A map of two members. -/
def pair (first second : String × Tree) : Tree :=
  .map (.ofEntries [(word first.1, first.2), (word second.1, second.2)])

def single (tree : Tree) : Tree := .list (.item tree (.done .closed))

def tree : Tree :=
  pair ("opcodes", pair ("NOP", .number ['0']) ("ADD", .number ['1']))
    ("states", single (pair ("name", .text (word "A"))
      ("next", single (pair ("zero", .flag true) ("state", .text (word "A"))))))

def turnedTree : Tree :=
  pair
    ("states", single (pair ("next", single (pair ("state", .text (word "A")) ("zero", .flag true)))
      ("name", .text (word "A"))))
    ("opcodes", pair ("ADD", .number ['1']) ("NOP", .number ['0']))

theorem holds : Holds text tree := by
  have cut : (Relaxed.toJson text).toOption.map Lexeme.scan = some lexemes := by decide +kernel
  exact holds_of_lexemes cut rfl

theorem holds_turned : Holds turned turnedTree := by
  have cut : (Relaxed.toJson turned).toOption.map Lexeme.scan = some turnedLexemes := by
    decide +kernel
  exact holds_of_lexemes cut rfl

theorem reordered_pair {first second : String} (named : (word first).read = .ok first)
    (named' : (word second).read = .ok second) (differ : first ≠ second)
    {value value' other other' : Tree} (here : value.Reordered value')
    (there : other.Reordered other') :
    (pair (first, value) (second, other)).Reordered (pair (second, other') (first, value')) :=
  Tree.reordered_of_perm (.swap (word second, other') (word first, value') [])
    (.cons ⟨rfl, here⟩ (.cons ⟨rfl, there⟩ .nil))
    (List.pairwise_pair.mpr (Text.not_sameName named named' differ))

theorem reordered : tree.Reordered turnedTree := by
  have opcodes : (pair ("NOP", .number ['0']) ("ADD", .number ['1'])).Reordered
      (pair ("ADD", .number ['1']) ("NOP", .number ['0'])) :=
    reordered_pair rfl rfl (by decide) (.same _) (.same _)
  have clause : (pair ("zero", .flag true) ("state", .text (word "A"))).Reordered
      (pair ("state", .text (word "A")) ("zero", .flag true)) :=
    reordered_pair rfl rfl (by decide) (.same _) (.same _)
  have state : (pair ("name", .text (word "A"))
      ("next", single (pair ("zero", .flag true) ("state", .text (word "A"))))).Reordered
      (pair ("next", single (pair ("state", .text (word "A")) ("zero", .flag true)))
        ("name", .text (word "A"))) :=
    reordered_pair rfl rfl (by decide) (.same _) (.list (.item clause (.done .closed)))
  exact reordered_pair rfl rfl (by decide) opcodes (.list (.item state (.done .closed)))

end Turned

end Document

/-- Texts whose trees differ only in the order of members of different names either both give a
document or neither does. They are loaded alike then: with the same schema, its opcodes in the order
of the bytes of their symbols, and the same program, or with the same error of the schema. -/
theorem Loaded.ofText_reordered {text text' : List Char} {tree tree' : Json.Tree}
    (holds : Document.Holds text tree) (holds' : Document.Holds text' tree')
    (reordered : tree.Reordered tree') :
    ((∃ document, Document.Reads text document) ↔ ∃ document, Document.Reads text' document) ∧
      ∀ document, Document.Reads text document → ofText text' = ofText text ∧
        ((∃ loaded, ofText text = .ok loaded ∧
            loaded.schema.opcodes.Pairwise fun first second =>
              first.symbol.toUTF8.data.toList < second.symbol.toUTF8.data.toList) ∨
          ∃ error, ofText text = .error (.schema error)) := by
  refine ⟨⟨?_, ?_⟩, ?_⟩
  · rintro ⟨document, reads⟩
    obtain ⟨document', reads', -⟩ := holds.exists_reads holds' reordered reads
    exact ⟨document', reads'⟩
  · rintro ⟨document, reads⟩
    obtain ⟨document', reads', -⟩ := holds'.exists_reads holds reordered.symm reads
    exact ⟨document', reads'⟩
  · intro document reads
    obtain ⟨document', reads', same⟩ := holds.exists_reads holds' reordered reads
    refine ⟨by rw [reads.ofText_eq, reads'.ofText_eq, same], ?_⟩
    rw [reads.ofText_eq]
    cases loading : document.load with
    | error error => exact Or.inr ⟨error, rfl⟩
    | ok loaded => exact Or.inl ⟨loaded, rfl, Document.opcodes_ascending loading⟩

theorem Loaded.ofText_reordered_turned : ∃ loaded,
    ofText Document.Turned.text = .ok loaded ∧ ofText Document.Turned.turned = .ok loaded ∧
      loaded.schema.opcodes = [⟨"ADD", 1⟩, ⟨"NOP", 0⟩] := by
  obtain ⟨loaded, success⟩ : ∃ loaded, ofText Document.Turned.text = .ok loaded :=
    exists_ok_of_isOk (by decide +kernel)
  obtain ⟨document, reads, -⟩ := Document.ofText_eq_ok_iff.mp success
  obtain ⟨-, alike⟩ := ofText_reordered Document.Turned.holds Document.Turned.holds_turned
    Document.Turned.reordered
  obtain ⟨same, -⟩ := alike document reads
  have opcodes : (ofText Document.Turned.text).toOption.map (·.schema.opcodes) =
      some [⟨"ADD", 1⟩, ⟨"NOP", 0⟩] := by decide +kernel
  rw [success] at opcodes
  exact ⟨loaded, success, same.trans success, Option.some.inj opcodes⟩

end ControlStore
