import MarkupTransfer.Dialect
import MarkupTransfer.Projection.Reach
/-!
# The form of a command line

Which commands and options there are, what each of them is for, and which values an option takes.
Command lines are read by these forms, and help is written from them.
-/

namespace MarkupTransfer.CommandLine

/-- The value of an option: the names it has to be one of, unless any text will do, and the one that
counts where none is given. -/
structure ValueForm where
  choices : List Text
  default : Option Text
  deriving DecidableEq, Repr

/-- An option: its long name, its short one if it has one, what it is for, and its value if it takes
one. -/
structure OptionForm where
  name : Text
  short : Option Char
  purpose : Text
  value : Option ValueForm
  deriving DecidableEq, Repr

namespace OptionForm

/-- Whether a command line is incomplete without an option: it has a value and no default. -/
def isRequired (f : OptionForm) : Bool := f.value.any fun v => v.default.isNone

/-- Whether a text may be the value of an option. -/
def allows (f : OptionForm) (t : Text) : Bool :=
  f.value.any fun v => v.choices.isEmpty || v.choices.contains t

end OptionForm

/-- A command: its name, what it is for, the name and the purpose of its operand if it may have one,
and its options. -/
structure CommandForm where
  name : Text
  purpose : Text
  operand : Option (Text × Text)
  options : List OptionForm
  deriving DecidableEq, Repr

/-- An option without a value. -/
def flag (name purpose : String) : OptionForm := ⟨name.toList, none, purpose.toList, none⟩

/-- An option that has to be given, with any text for its value. -/
def required (name purpose : String) : OptionForm :=
  ⟨name.toList, none, purpose.toList, some ⟨[], none⟩⟩

/-- An option whose value is one of a few names, the first one if none is given. -/
def selection (name purpose : String) (choices : List String) : OptionForm :=
  let names := choices.map String.toList
  ⟨name.toList, none, purpose.toList, some ⟨names, names.head?⟩⟩

/-! ## The forms of this program -/

/-- The name of the program. -/
def programName : Text := "tagwise".toList

/-- What the program is for. -/
def programPurpose : Text :=
  "tagwise: lossless tokenization and markup projection for translated text".toList

/-- The names of dialect policies. -/
def dialectNames : List (String × DialectPolicy) :=
  [("plain", .plain), ("detect", .detect), ("xliff", .force .xliff)]

/-- The names of policies for places without aligned words. -/
def unalignedNames : List (String × UnalignedPolicy) :=
  [("nearest", .nearest), ("proportional", .proportional)]

/-- Asks what the program or a command is for. -/
def helpForm : OptionForm := { flag "help" "Print help" with short := some 'h' }

/-- Asks for the version of the program. -/
def versionForm : OptionForm := { flag "version" "Print version" with short := some 'V' }

/-- The options for the whole program. The first of them changes nothing that is printed. -/
def globalForms : List OptionForm :=
  [{ flag "verbose" "Log debug output (RUST_LOG overrides)" with short := some 'v' },
    flag "skip-malformed" "Drop malformed tags instead of failing",
    selection "input-format" "Markup dialect used to retype tags" (dialectNames.map Prod.fst),
    flag "space-placeholders" "Keep tabs and newlines as <TAB> and <NL> words instead of tags"]

/-- Tokenizing lines. -/
def tokenizeForm : CommandForm where
  name := "tokenize".toList
  purpose := "Tokenize text, one sentence per line, into space separated placeholders".toList
  operand := some ("TEXT".toList, "Text to tokenize (stdin when omitted)".toList)
  options := [flag "json" "Print each sentence as JSON"]

/-- Removing markup from lines. -/
def stripForm : CommandForm where
  name := "strip".toList
  purpose := "Remove markup from text, one sentence per line".toList
  operand := some ("TEXT".toList, "Text to strip (stdin when omitted)".toList)
  options := [flag "placeholders" "Print normalised word forms"]

/-- Carrying markup over to a translation. -/
def projectForm : CommandForm where
  name := "project".toList
  purpose := "Carry the markup of a source sentence over to its translation".toList
  operand := none
  options :=
    [required "source" "Source sentence, with markup",
      required "target" "Translated sentence",
      required "alignment" "Word alignment as \"source-target\" pairs, e.g. \"0-0 1-2 2-1\"",
      selection "unaligned" "Placement of tags next to unaligned words"
        (unalignedNames.map Prod.fst),
      flag "strip" "Print the translation without markup",
      flag "placeholders" "Print normalised word forms",
      flag "json" "Print the projected translation as JSON"]

/-- The commands that do the program's work. -/
def commandForms : List CommandForm := [tokenizeForm, stripForm, projectForm]

/-- The command that explains the others. -/
def helpCommand : CommandForm where
  name := "help".toList
  purpose := "Print this message or the help of the given subcommand(s)".toList
  operand := some ("COMMAND".toList, "Print help for the subcommand(s)".toList)
  options := []

end MarkupTransfer.CommandLine
