import ControlStore.Document.Load
import ControlStore.Proofs.DocumentTexts
import ControlStore.Proofs.TextRoom

set_option autoImplicit false

/-!
Texts and the trees they hold. The strict form of a text is one tree, and the document of the text
is that of the tree, whatever stands behind its quoted texts; behind it only the schema can be
wrong.
-/
namespace ControlStore

theorem Loaded.ofText_of_syntaxFault {text : List Char} {fault : Relaxed.SyntaxFault}
    (failed : Relaxed.toJson text = .error fault) : ofText text = .error (.syntaxFault fault) := by
  simp only [ofText, failed]

theorem Loaded.ofText_of_unread {text strict : List Char} {fault : Document.Fault}
    (translated : Relaxed.toJson text = .ok strict) (failed : Document.read strict = .error fault) :
    ofText text = .error (.document fault) := by
  simp only [ofText, translated, failed]

namespace Document

open Json (Tree Lexeme Text Harmless)

/-- The strict form of a text is read as a tree, up to what stands behind its quoted texts. -/
def Holds (text : List Char) (tree : Tree) : Prop :=
  ∃ strict, Relaxed.toJson text = .ok strict ∧ (Tree.read (Lexeme.scan strict)).2 = [] ∧
    (Tree.read (Lexeme.scan strict)).1.mapText Text.spread = tree.mapText Text.spread

theorem read_eq_ok_iff {text : List Char} {document : Document} :
    read text = .ok document ↔ ofTree (Tree.read (Lexeme.scan text)).1 = .ok document ∧
      (Tree.read (Lexeme.scan text)).2 = [] := by
  rw [read]
  rcases Tree.read (Lexeme.scan text) with ⟨tree, rest⟩
  dsimp only
  rw [bind_eq_ok_iff]
  constructor
  · rintro ⟨found, success, ended⟩
    split at ended
    · cases ended
      exact ⟨success, ‹_›⟩
    · cases ended
  · rintro ⟨success, whole⟩
    exact ⟨document, success, if_pos whole⟩

/-- The document that a text gives, before its opcodes and defaults are judged. -/
def Reads (text : List Char) (document : Document) : Prop :=
  ∃ strict, Relaxed.toJson text = .ok strict ∧ read strict = .ok document

/-- Behind a document that was read, only its schema can be wrong. -/
theorem Reads.ofText_eq {text : List Char} {document : Document} (reads : Reads text document) :
    Loaded.ofText text = document.load.mapError .schema := by
  obtain ⟨strict, translated, found⟩ := reads
  simp only [Loaded.ofText, translated, found]
  cases document.load <;> rfl

theorem ofText_eq_ok_iff {text : List Char} {loaded : Loaded} :
    Loaded.ofText text = .ok loaded ↔
      ∃ document, Reads text document ∧ document.load = .ok loaded := by
  constructor
  · intro success
    cases translated : Relaxed.toJson text with
    | error fault => simp [Loaded.ofText, translated] at success
    | ok strict =>
        cases found : read strict with
        | error fault => simp [Loaded.ofText, translated, found] at success
        | ok document =>
            have reads : Reads text document := ⟨strict, translated, found⟩
            rw [reads.ofText_eq] at success
            refine ⟨document, reads, ?_⟩
            cases loading : document.load <;> simp_all [Except.mapError]
  · rintro ⟨document, reads, loads⟩
    rw [reads.ofText_eq, loads]
    rfl

theorem harmless_spread : Harmless (fun _ _ => True) Text.spread :=
  ⟨fun _ => trivial, fun _ => Text.read_spread (fun _ => trivial) fun _ _ _ => trivial,
    fun _ => Text.skip_spread (fun _ => trivial) fun _ _ _ => trivial⟩

/-- What stands behind quoted texts does not decide which document is read. -/
theorem ofTree_eq_ok_of_spread {first second : Tree}
    (same : first.mapText Text.spread = second.mapText Text.spread) {document : Document}
    (success : ofTree first = .ok document) : ofTree second = .ok document := by
  have here := ofTree_blind harmless_spread first
  rw [same] at here
  obtain ⟨_, found, _, rfl, rfl⟩ :=
    (here.meet (ofTree_blind harmless_spread second)).exists_ok success
  exact found

/-- A text that holds a tree gives the document of the tree. -/
theorem Holds.reads_iff {text : List Char} {tree : Tree} (holds : Holds text tree)
    {document : Document} : Reads text document ↔ ofTree tree = .ok document := by
  obtain ⟨strict, translated, whole, same⟩ := holds
  constructor
  · rintro ⟨_, translated', found⟩
    cases translated.symm.trans translated'
    exact ofTree_eq_ok_of_spread same (read_eq_ok_iff.mp found).1
  · intro found
    exact ⟨strict, translated, read_eq_ok_iff.mpr ⟨ofTree_eq_ok_of_spread same.symm found, whole⟩⟩

theorem Holds.ofText_eq_ok_iff {text : List Char} {tree : Tree} (holds : Holds text tree)
    {loaded : Loaded} : Loaded.ofText text = .ok loaded ↔
      ∃ document, ofTree tree = .ok document ∧ document.load = .ok loaded := by
  simp only [Document.ofText_eq_ok_iff, holds.reads_iff]

/-- A text whose tree gives no document is not read. -/
theorem Holds.exists_unread {text : List Char} {tree : Tree} (holds : Holds text tree)
    (none : ∀ document, ofTree tree ≠ .ok document) :
    ∃ fault, Loaded.ofText text = .error (.document fault) := by
  have ⟨strict, translated, _⟩ := holds
  cases found : read strict with
  | error fault => exact ⟨fault, Loaded.ofText_of_unread translated found⟩
  | ok document => exact absurd (holds.reads_iff.mp ⟨strict, translated, found⟩) (none document)

/-- Every text that is loaded holds a tree. -/
theorem exists_holds {text : List Char} {loaded : Loaded}
    (success : Loaded.ofText text = .ok loaded) : ∃ tree, Holds text tree := by
  obtain ⟨document, ⟨strict, translated, read⟩, -⟩ := ofText_eq_ok_iff.mp success
  exact ⟨_, strict, translated, (read_eq_ok_iff.mp read).2, rfl⟩

/-- A text holds the tree that is read from its lexemes. -/
theorem holds_of_lexemes {source : List Char} {lexemes : List Lexeme} {tree : Tree}
    (cut : (Relaxed.toJson source).toOption.map Lexeme.scan = some lexemes)
    (read : Tree.read lexemes = (tree, [])) : Holds source tree := by
  cases translated : Relaxed.toJson source with
  | error fault =>
      rw [translated] at cut
      cases cut
  | ok strict =>
      rw [translated] at cut
      cases cut
      exact ⟨strict, translated, by rw [read], by rw [read]⟩

end Document

end ControlStore
