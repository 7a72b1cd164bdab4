import MarkupTransfer.CommandLine.Forms
/-!
# Help

What is printed to explain the program or one of its commands: what it is for, how it is used, and
lists of its commands, operands and options.
-/

namespace MarkupTransfer.CommandLine

/-! ## Lists -/

/-- An entry of a list: the label that is explained, what stands in front of it, and the note that
explains it. -/
structure Entry where
  lead : Text
  label : Text
  note : Text
  deriving DecidableEq, Repr

namespace Entry

/-- Number of columns of a page. -/
def pageWidth : Nat := 100

/-- Length of the longest label. -/
def widest (entries : List Entry) : Nat := (entries.map fun e => e.label.length).foldl max 0

/-- Whether notes stand below their labels: the labels take more than two fifths of the page and
some note does not fit beside them. -/
def isStacked (entries : List Entry) : Bool :=
  let taken := widest entries + 12
  taken ≤ pageWidth && 2 * pageWidth < 5 * taken &&
    entries.any fun e => pageWidth - taken < e.note.length

/-- What stands between a label and its note. -/
def gap (entries : List Entry) (e : Entry) : Text :=
  if isStacked entries then '\n' :: List.replicate 10 ' '
  else List.replicate (widest entries - e.label.length + 2) ' '

/-- A list under a heading. -/
def list (heading : String) (entries : List Entry) : Text :=
  heading.toList ++ ":\n".toList ++
    entries.flatMap fun e => e.lead ++ e.label ++ gap entries e ++ e.note ++ ['\n']

end Entry

/-! ## Options and operands -/

namespace OptionForm

/-- What an option looks like on a command line. -/
def label (f : OptionForm) : Text :=
  "--".toList ++ f.name ++
    if f.value.isNone then []
    else " <".toList ++ f.name.map (fun c => if c = '-' then '_' else c.toUpper) ++ ['>']

/-- What an option is for, its default and its possible values. -/
def note (f : OptionForm) : Text :=
  let default := (f.value.bind ValueForm.default).map fun t =>
    " [default: ".toList ++ t ++ [']']
  let choices := (f.value.map ValueForm.choices).getD []
  f.purpose ++ default.getD [] ++
    if choices.isEmpty then []
    else " [possible values: ".toList ++ ", ".toList.intercalate choices ++ [']']

/-- The entry of an option. -/
def entry (f : OptionForm) : Entry :=
  ⟨match f.short with
    | some c => [' ', ' ', '-', c, ',', ' ']
    | none => List.replicate 6 ' ', f.label, f.note⟩

/-- What decides between two options at one place of their lists: the short name, if there is one, a
small letter before its capital. -/
def sortKey (f : OptionForm) : Text :=
  match f.short with
  | some c => [c.toLower, if c.isLower then '0' else '1']
  | none => f.name

/-- The options of two lists by turns: those that come first in theirs, then those that come second,
and so on. -/
def byTurns (own shared : List OptionForm) : List OptionForm :=
  let le (a b : OptionForm × Nat) : Bool :=
    a.2 < b.2 || (a.2 == b.2 && (compare a.1.sortKey b.1.sortKey).isLE)
  ((own.zipIdx ++ shared.zipIdx).mergeSort le).map Prod.fst

end OptionForm

namespace CommandForm

/-- The entry of a command. -/
def entry (f : CommandForm) : Entry := ⟨"  ".toList, f.name, f.purpose⟩

end CommandForm

/-! ## Pages -/

/-- What help is asked for. -/
inductive Topic
  | program
  | command (form : CommandForm)
  | help
  deriving DecidableEq, Repr

namespace Topic

/-- What a topic is for. -/
def purpose : Topic → Text
  | program => programPurpose
  | command f => f.purpose
  | help => helpCommand.purpose

/-- How a topic is used. -/
def usage : Topic → Text
  | program => programName ++ " [OPTIONS] <COMMAND>".toList
  | command f =>
    programName ++ ' ' :: f.name ++ " [OPTIONS]".toList ++
      ((f.options.filter OptionForm.isRequired).flatMap fun o => ' ' :: o.label) ++
      (f.operand.map fun o => " [".toList ++ o.1 ++ [']']).getD []
  | help => programName ++ ' ' :: helpCommand.name ++ " [COMMAND]...".toList

/-- The lists of a topic. -/
def lists : Topic → List Text
  | program =>
    [Entry.list "Commands" ((commandForms ++ [helpCommand]).map CommandForm.entry),
      Entry.list "Options" ((globalForms ++ [helpForm, versionForm]).map OptionForm.entry)]
  | command f =>
    (f.operand.map fun o =>
      Entry.list "Arguments" [⟨"  ".toList, ['['] ++ o.1 ++ [']'], o.2⟩]).toList ++
    [Entry.list "Options"
      ((OptionForm.byTurns f.options globalForms ++ [helpForm]).map OptionForm.entry)]
  | help =>
    [Entry.list "Arguments"
      (helpCommand.operand.map fun o =>
        (⟨"  ".toList, ['['] ++ o.1 ++ "]...".toList, o.2⟩ : Entry)).toList]

/-- The page that explains a topic. -/
def page (t : Topic) : Text :=
  t.purpose ++ "\n\nUsage: ".toList ++ t.usage ++ ['\n'] ++ t.lists.flatMap fun l => '\n' :: l

end Topic

end MarkupTransfer.CommandLine
