import MarkupTransfer.CommandLine.Help
import MarkupTransfer.Draft.Build
/-!
# Command line arguments

A command line has options for the whole program, the name of a command, and the options and
operands of that command; the options for the whole program may also stand among those of the
command, where they have precedence. An option is given at most once in either place. Its value
follows as an argument of its own or behind an equals sign; only in the second form may it begin
with a dash, but for a dash alone. Short names stand behind one dash, several of them in a row if
one likes. Behind `--` everything is an operand. Where help or the version is asked for, the rest is
not read.
-/

namespace MarkupTransfer.CommandLine

/-- What the program is asked to do. -/
inductive Command
  | tokenize (text : Option Text) (json : Bool)
  | strip (text : Option Text) (placeholders : Bool)
  | project (source target alignment : Text) (unaligned : UnalignedPolicy)
      (strip placeholders json : Bool)
  deriving DecidableEq, Repr

/-- A command and the settings that every command shares. -/
structure Invocation where
  options : Options
  spacePlaceholders : Bool
  command : Command
  deriving DecidableEq, Repr

/-- What a command line asks for. -/
inductive Request
  | run (i : Invocation)
  | help (topic : Topic)
  | version
  deriving DecidableEq, Repr

/-! ## Options and operands -/

/-- What an argument turns out to be. -/
inductive Item
  | option (name : Text) (value : Option Text)
  | operand (t : Text)
  | command (name : Text) (arguments : List Text)

/-- Whether an option asks about the program, which ends the reading of a command line. -/
def OptionForm.informs (f : OptionForm) : Bool := f == helpForm || f == versionForm

/-- Whether an argument may stand for a value or an operand. -/
def isPlain : Text → Bool
  | ['-'] => true
  | '-' :: _ => false
  | _ => true

/-- The option that a long name stands for, and the value behind its equals sign. -/
def long? (forms : List OptionForm) (t : Text) : Option (OptionForm × Option Text) :=
  let name := t.takeWhile (· != '=')
  (forms.find? fun f => f.name == name).map fun f =>
    (f, match t.dropWhile (· != '=') with
      | [] => none
      | _ :: value => some value)

/-- The options that short names in a row stand for, up to one that ends the reading. None of them
takes a value. -/
def shorts? (forms : List OptionForm) : Text → Option (List OptionForm)
  | [] => some []
  | c :: t =>
    match forms.find? fun f => f.short == some c with
    | none => none
    | some f => if f.informs then some [f] else (shorts? forms t).map (f :: ·)

/-- Tell arguments apart. Where a command is expected, its name ends the list and takes what follows
along. -/
def items? (forms : List OptionForm) (expectsCommand : Bool) : List Text → Option (List Item)
  | [] => some []
  | arg :: rest =>
    if isPlain arg then
      if expectsCommand then some [.command arg rest]
      else (items? forms expectsCommand rest).map (.operand arg :: ·)
    else
      match arg.drop 1 with
      | ['-'] => some (rest.map .operand)
      | '-' :: t =>
        match long? forms t with
        | none => none
        | some (f, some value) =>
          if f.allows value then
            (items? forms expectsCommand rest).map (.option f.name (some value) :: ·)
          else none
        | some (f, none) =>
          if f.value.isNone then
            if f.informs then some [.option f.name none]
            else (items? forms expectsCommand rest).map (.option f.name none :: ·)
          else
            match rest with
            | [] => none
            | value :: rest =>
              if isPlain value && f.allows value then
                (items? forms expectsCommand rest).map (.option f.name (some value) :: ·)
              else none
      | t =>
        match shorts? forms t with
        | none => none
        | some fs =>
          let options := fs.map fun f => Item.option f.name none
          if fs.any OptionForm.informs then some options
          else (items? forms expectsCommand rest).map (options ++ ·)

/-- Options that were given, each with its value, and the operands. -/
structure Given where
  options : List (Text × Option Text)
  operands : List Text

namespace Given

/-- Sort out items. No option may be given twice. -/
def ofItems? (items : List Item) : Option Given :=
  let options := items.filterMap fun
    | .option name value => some (name, value)
    | _ => none
  let operands := items.filterMap fun
    | .operand t => some t
    | _ => none
  if (options.map Prod.fst).Nodup then some ⟨options, operands⟩ else none

/-- Whether an option was given. -/
def has (g : Given) (name : String) : Bool := (g.options.lookup name.toList).isSome

/-- The value of an option, where it was given. -/
def value? (g : Given) (name : String) : Option Text := (g.options.lookup name.toList).join

/-- The value of an option with a few named values, or another one where it was not given. -/
def choice {α : Type} (g : Given) (name : String) (choices : List (String × α)) (default : α) : α :=
  match g.value? name with
  | none => default
  | some t => ((choices.find? fun c => c.1.toList == t).map Prod.snd).getD default

end Given

/-! ## Commands -/

/-- The command that a name and what was given for it amount to. -/
def command? (form : CommandForm) (g : Given) : Option Command :=
  if form = tokenizeForm then some (.tokenize g.operands.head? (g.has "json"))
  else if form = stripForm then some (.strip g.operands.head? (g.has "placeholders"))
  else do
    return .project (← g.value? "source") (← g.value? "target") (← g.value? "alignment")
      (g.choice "unaligned" unalignedNames .nearest)
      (g.has "strip") (g.has "placeholders") (g.has "json")

/-- The invocation that options for the whole program and a command amount to. Options given with
the command go before those given ahead of it. -/
def invocation? (ahead : Given) (form : CommandForm) (g : Given) : Option Invocation := do
  let outer := ahead.choice "input-format" dialectNames .plain
  let dialect := g.choice "input-format" dialectNames outer
  let skip := ahead.has "skip-malformed" || g.has "skip-malformed"
  return {
    options := ⟨if skip then .skip else .abort, dialect⟩
    spacePlaceholders := ahead.has "space-placeholders" || g.has "space-placeholders"
    command := ← command? form g }

/-- The topic that the help command is asked about. -/
def topic? : List Text → Option Topic
  | [] => some .program
  | [name] =>
    if name = helpCommand.name then some .help
    else (commandForms.find? fun f => f.name == name).map .command
  | _ => none

/-- What is asked of a command, given what stands ahead of its name and the arguments behind it. -/
def request? (ahead : Given) (form : CommandForm) (arguments : List Text) : Option Request := do
  let g ← Given.ofItems? (← items? (form.options ++ globalForms ++ [helpForm]) false arguments)
  if form.operand.toList.length < g.operands.length then none
  else if g.has "help" then return .help (.command form)
  else (invocation? ahead form g).map .run

/-- What a command line asks for; none if it is not understood. -/
def parse? (arguments : List Text) : Option Request := do
  let outer ← items? (globalForms ++ [helpForm, versionForm]) true arguments
  let ahead ← Given.ofItems? outer
  match outer.getLast? with
  | some (.command name rest) =>
    if name = helpCommand.name then (topic? rest).map .help
    else request? ahead (← commandForms.find? fun f => f.name == name) rest
  | _ =>
    if ahead.has "help" then return .help .program
    else if ahead.has "version" then return .version
    else none

end MarkupTransfer.CommandLine
