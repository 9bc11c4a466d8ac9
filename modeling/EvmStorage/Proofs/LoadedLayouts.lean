import EvmStorage.Command.StorageReader
import EvmStorage.Proofs.ReportKinds

namespace EvmStorage

/-!
# Layouts that load

A layout file loads, or the storage reader prints why it does not and ends,
with four exceptions: the file is not UTF-8, an integer in it is too long to be
read, its parts lie in one another too deep, or the first thing that is wrong
with the report is the kind of one of its parts.  How deep is too deep is left
open, and nothing is said of files that write half of a character alone.
-/

namespace Layout

variable {value : Value}

/--
Whether a layout is loaded, or there is a fault that is reported or tells of a
missing file.
-/
def LoadsOrReports : Except Fault Layout → Prop
  | .ok _ => True
  | .error fault => Command.StorageReader.isLoadError fault

instance (loaded : Except Fault Layout) : Decidable (LoadsOrReports loaded) :=
  match loaded with
  | .ok _ => isTrue trivial
  | .error fault =>
    inferInstanceAs (Decidable (Command.StorageReader.isLoadError fault = true))

variable {levels : Nat}

/-- Whether a text in a file has half of a character in it that is alone. -/
inductive HoldsHalfCharacter (levels : Nat) : File → Prop where
  | intro
      {content : Bytes}
      {text : String}
      (isText : utf8? content = some text)
      (isHalf : Json.readWithin levels text = .error .halfCharacter) :
      HoldsHalfCharacter levels (some content)

/-- Why a file neither loads nor is reported. -/
inductive Unreported (levels : Nat) : File → Prop where
  | notUtf8
      {content : Bytes}
      (noText : utf8? content = none) :
      Unreported levels (some content)
  | numeralTooLong
      {content : Bytes}
      {text : String}
      (isText : utf8? content = some text)
      (tooLong : Json.readWithin levels text = .error .oversizedInteger) :
      Unreported levels (some content)
  | nestedTooDeep
      {content : Bytes}
      {text : String}
      (isText : utf8? content = some text)
      (tooDeep : Json.readWithin levels text = .error .nestedTooDeep) :
      Unreported levels (some content)
  | misshapen
      {content : Bytes}
      {text : String}
      {report : Value}
      (isText : utf8? content = some text)
      (isReport : Json.readWithin levels text = .ok report)
      (misshapen : Misshapen report) :
      Unreported levels (some content)

/--
A report that is read loads or is reported unless a kind is the first thing
wrong with it.
-/
theorem loadsOrReports_ofReport_iff
    (canShow : value.canShow) :
    LoadsOrReports (ofReport value) ↔ ¬ Misshapen value := by
  cases refusesUnless_ofReport canShow with
  | ok isResult rightKinds =>
      rw [isResult]
      exact iff_of_true trivial rightKinds
  | refused isRefusal hasMessage rightKinds =>
      rw [isRefusal]
      exact iff_of_true hasMessage rightKinds
  | misshapen isKind isWrong =>
      rw [isKind]
      exact iff_of_false Bool.false_ne_true (not_not_intro isWrong)

/-- A file that holds a document is told by what the document is read as. -/
theorem unreported_iff_of_text
    {content : Bytes}
    {text : String}
    (isText : utf8? content = some text) :
    Unreported levels (some content) ↔
      Json.readWithin levels text = .error .oversizedInteger ∨
        Json.readWithin levels text = .error .nestedTooDeep ∨
        ∃ report,
          Json.readWithin levels text = .ok report ∧ Misshapen report := by
  constructor
  · intro unreported
    cases unreported with
    | notUtf8 noText =>
        cases isText.symm.trans noText
    | numeralTooLong isOther tooLong =>
        obtain rfl := Option.some.inj (isText.symm.trans isOther)
        exact .inl tooLong
    | nestedTooDeep isOther tooDeep =>
        obtain rfl := Option.some.inj (isText.symm.trans isOther)
        exact .inr (.inl tooDeep)
    | misshapen isOther isReport misshapen =>
        obtain rfl := Option.some.inj (isText.symm.trans isOther)
        exact .inr (.inr ⟨_, isReport, misshapen⟩)
  · rintro (tooLong | tooDeep | ⟨report, isReport, misshapen⟩)
    · exact .numeralTooLong isText tooLong
    · exact .nestedTooDeep isText tooDeep
    · exact .misshapen isText isReport misshapen

/-- A file loads or is reported unless there is a reason why not. -/
theorem loadsOrReports_ofFile_iff
    (path : String)
    {file : File}
    (wholeTexts : ¬ HoldsHalfCharacter levels file) :
    LoadsOrReports (ofFileWithin levels path file) ↔
      ¬ Unreported levels file := by
  cases file with
  | none =>
      exact iff_of_true rfl nofun
  | some content =>
      cases isText : utf8? content with
      | none =>
          have isFault :
              ofFileWithin levels path (some content) =
                .error (.misuse (.fileNotUtf8 path)) := by
            simp only [ofFileWithin, isText]
          rw [isFault]
          exact iff_of_false Bool.false_ne_true
            (not_not_intro (.notUtf8 isText))
      | some text =>
          rw [unreported_iff_of_text isText]
          simp only [ofFileWithin, isText]
          cases isRead : Json.readWithin levels text with
          | ok report =>
              simpa using
                loadsOrReports_ofReport_iff (Json.canShow_of_readWithin isRead)
          | error refusal =>
              cases refusal with
              | malformed =>
                  simp [LoadsOrReports, Command.StorageReader.isLoadError,
                    Fault.isReported, Fault.family?, Fault.causeFamily?,
                    Fault.hasMessage, Fault.shownValues,
                    SchemaFault.shownValues]
              | halfCharacter =>
                  exact absurd (.intro isText isRead) wholeTexts
              | oversizedInteger | nestedTooDeep =>
                  simp [LoadsOrReports, Command.StorageReader.isLoadError,
                    Fault.isReported, Fault.family?, Fault.causeFamily?]

/-- The bytes of a text in UTF-8. -/
def fileOf (text : String) : File :=
  some text.toUTF8.toList

/-- The reports of a variable, of members and of types that are no objects. -/
def misshapenReports : List Value :=
  [.record [("storage", .list [.int 5])],
    .record [
      ("storage", .list []),
      ("types", .record [("box", .record [("label", .text "struct Box"),
        ("encoding", .text "inplace"), ("numberOfBytes", .int 32),
          ("members", .int 5)])])],
    .record [("storage", .list []), ("types", .list [.int 5])]]

end Layout

namespace Command.StorageReader

variable {hash : Digest} {surroundings : Surroundings σ}
variable {arguments : List String} {given : Arguments}

/--
A report of a type with an unknown encoding, whose members are a number as
well.
-/
def unknownEncoding : String :=
  "\x7b\"storage\": [], \"types\": \x7b\"box\": \x7b\"label\": \"box\", " ++
    "\"encoding\": \"packed\", \"numberOfBytes\": \"32\", " ++
    "\"members\": 5\x7d\x7d\x7d"

/-- A reader of given files, whose node is not reached. -/
def readerOf (files : String → Layout.File) : Surroundings Unit where
  settings := Settings.default
  load := fun path => Layout.ofFile path (files path)
  node := fun _ state => (.failed .timedOut, state)

end Command.StorageReader

end EvmStorage
