import ControlStore.Main
import ControlStore.Proofs.StateField
import ControlStore.Schema.Directory
import ControlStore.Proofs.BlockComments
import ControlStore.Proofs.StrictJson
import ControlStore.Proofs.Matched
import ControlStore.Proofs.OpcodeOrder
import ControlStore.CommandLine.Item
import ControlStore.Proofs.CommandItems
import ControlStore.Proofs.CommandRuns
import ControlStore.Proofs.DocumentTexts
import ControlStore.Proofs.TextRoom
import ControlStore.Proofs.TokenLexemes
import ControlStore.Proofs.Layout
import ControlStore.Document.Form
import ControlStore.Proofs.TransitionForms
import ControlStore.Document.Edit
import ControlStore.Proofs.StateEdits
import ControlStore.Proofs.StateNames
import ControlStore.Proofs.StateFrame
import ControlStore.Proofs.InstructionCycle
import ControlStore.Json.Reordered
import ControlStore.Proofs.Utf8Order
import ControlStore.Proofs.MemberOrder
import ControlStore.Proofs.DocumentOrder
import ControlStore.Proofs.HeldDocuments
import ControlStore.Proofs.LoadOrder
import ControlStore.Proofs.ResolvedTables
import ControlStore.Proofs.SuccessorQueries
import ControlStore.Proofs.TransitionEdits
import ControlStore.Proofs.ClauseEdits
import ControlStore.Proofs.OpcodeLookups
import ControlStore.Proofs.OpcodeFaults
import ControlStore.Proofs.Registers
import ControlStore.Proofs.AddressBits
import ControlStore.Proofs.WordRoundTrip
import ControlStore.Proofs.FieldDefaults
import ControlStore.Proofs.HexDigits
import ControlStore.Proofs.SyntaxFaults
import ControlStore.Proofs.TokenLines
import ControlStore.Proofs.ReadBack
import ControlStore.Proofs.Literals
import ControlStore.Proofs.Dumps
import ControlStore.Proofs.ArgumentItems
import ControlStore.Proofs.IgnoredArguments
import ControlStore.Document.Parts
import ControlStore.Proofs.MemberRuns
import ControlStore.Proofs.StateParts
import ControlStore.Proofs.DocumentParts
import ControlStore.Proofs.LoadFaults
import ControlStore.Proofs.EditedStates
import ControlStore.Proofs.NextContained
import ControlStore.Microcode.CodeTable
import ControlStore.Proofs.StateCodes
import ControlStore.Proofs.TokenSpans
import ControlStore.Checked.Access
import ControlStore.Checked.Address
import ControlStore.Checked.Registry
import ControlStore.Checked.Microcode
import ControlStore.Proofs.CheckedAccess
import ControlStore.Proofs.CheckedRegistry
import ControlStore.Proofs.CheckedTables
import ControlStore.Proofs.AccessBounds
