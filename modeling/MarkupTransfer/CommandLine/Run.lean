import MarkupTransfer.CommandLine.Arguments
import MarkupTransfer.Projection.Transfer
import MarkupTransfer.Sentence.Render
import MarkupTransfer.Sentence.Stored
import MarkupTransfer.Spacing.Transfer
import MarkupTransfer.Tokenize
/-!
# Running commands

What each command prints. Lines come from the command line or from the input; output that was
printed before an error stays.
-/

namespace MarkupTransfer.CommandLine

/-- Why a command fails. -/
inductive CommandError
  | undecodableInput
  | build (error : BuildError)
  | projection (error : ProjectionError)
  | alignment (point : Text)
  deriving DecidableEq, Repr

namespace CommandError

/-- How the error is reported. -/
def message : CommandError → Text
  | undecodableInput => "Error reading input: stream did not contain valid UTF-8".toList
  | build error => "Tokenize error: ".toList ++ error.message
  | projection error => "Projection error: ".toList ++ error.message
  | alignment point =>
    "Invalid alignment point ".toList ++ point.quoted ++ ", expected \"source-target\"".toList

end CommandError

/-- The exit code of a program and what it printed. -/
structure Outcome where
  code : Nat
  output : Text
  errors : Text
  deriving DecidableEq, Repr

namespace Outcome

/-- A command that succeeded. -/
def success (output : Text) : Outcome := ⟨0, output, []⟩

/-- A command that failed after some output. -/
def failure (output : Text) (error : CommandError) : Outcome := ⟨1, output, error.message ++ ['\n']⟩

/-- A command line that was not understood. -/
def usage : Outcome := ⟨2, [], "unusable command line\n".toList⟩

end Outcome

/-! ## Lines -/

/-- The lines of a text. A line end is a line feed, with a carriage return before it if there is
one; what follows the last line end is a line unless it is empty. -/
def lines (t : Text) : List Text :=
  let parts := t.splitOnP (· == '\n')
  let ended := parts.dropLast.map fun line =>
    if line.getLast? = some '\r' then line.dropLast else line
  match parts.getLast? with
  | none => ended
  | some last => if last.isEmpty then ended else ended ++ [last]

/-- The characters of bytes in UTF-8. -/
def decodeUtf8? (input : ByteArray) : Option Text := (String.fromUTF8? input).map String.toList

/-- The lines a command works on: the given text, or the lines of the input. -/
def linesOf (text : Option Text) (input : ByteArray) : Except CommandError (List Text) :=
  match text with
  | some t => .ok [t]
  | none =>
    match decodeUtf8? input with
    | some t => .ok (lines t)
    | none => .error .undecodableInput

/-- Print one line for each line, up to the first error. -/
def printEach (show? : Text → Except CommandError Text) (printed : Text) : List Text → Outcome
  | [] => .success printed
  | line :: rest =>
    match show? line with
    | .ok t => printEach show? (printed ++ t ++ ['\n']) rest
    | .error e => .failure printed e

/-! ## Commands -/

/-- The sentence that a line becomes. -/
def Invocation.tokenize (i : Invocation) (line : Text) : Except CommandError Sentence :=
  let passes := if i.spacePlaceholders then Pass.withSpacePlaceholders else Pass.standard
  (tokenizeWith i.options passes line).mapError .build

/-- A sentence as the text of its JSON value. -/
def jsonText (s : Sentence) : Text := s.toJson.write

/-- The placeholders of the words of a sentence, with blanks between them. -/
def placeholderText (s : Sentence) : Text :=
  [' '].intercalate (s.words.map Word.placeholder)

/-- The two numbers of an alignment point: one before the first dash and one behind it. -/
def point? (t : Text) : Option (Nat × Nat) :=
  match t.dropWhile (· != '-') with
  | [] => none
  | _ :: target =>
    (Text.count? (t.takeWhile (· != '-'))).bind fun s => (Text.count? target).map fun t => (s, t)

/-- Read an alignment point. -/
def readPoint (t : Text) : Except CommandError (Nat × Nat) :=
  match point? t with
  | some point => .ok point
  | none => .error (.alignment t)

/-- The alignment that a text lists, point by point with white space between them. -/
def alignment (t : Text) : Except CommandError Alignment :=
  ((Text.fields t).mapM readPoint).map Alignment.ofPairs

/-- The translation of a source with its spacing and its tags. -/
def Invocation.project (i : Invocation) (source target points : Text)
    (unaligned : UnalignedPolicy) : Except CommandError Sentence := do
  let source ← i.tokenize source
  let target ← i.tokenize target
  let alignment ← alignment points
  let translation := Translation.ofWords target.words source alignment
  let projected ←
    ((translation.projectSpacing Separators.punctuate).projectTags unaligned).mapError .projection
  return projected.sentence

/-- Whether a command reads its input. -/
def Invocation.readsInput (i : Invocation) : Bool :=
  match i.command with
  | .tokenize text _ => text.isNone
  | .strip text _ => text.isNone
  | .project .. => false

/-- What a command prints. -/
def Invocation.run (i : Invocation) (input : ByteArray) : Outcome :=
  match i.command with
  | .tokenize text json =>
    match linesOf text input with
    | .error e => .failure [] e
    | .ok lines =>
      printEach (fun line => (i.tokenize line).map fun s =>
        if json then jsonText s else placeholderText s) [] lines
  | .strip text placeholders =>
    match linesOf text input with
    | .error e => .failure [] e
    | .ok lines =>
      printEach (fun line => (i.tokenize line).map fun s => s.stripped placeholders) [] lines
  | .project source target points unaligned strip placeholders json =>
    match i.project source target points unaligned with
    | .error e => .failure [] e
    | .ok s =>
      .success ((if json then jsonText s
        else if strip then s.stripped placeholders
        else s.markup placeholders) ++ ['\n'])

/-- The version of the program. -/
def version : Text := "0.1.0".toList

/-- Whether a request needs the input. -/
def Request.readsInput : Request → Bool
  | run i => i.readsInput
  | help _ | version => false

/-- What is printed for a request. -/
def Request.answer (input : ByteArray) : Request → Outcome
  | run i => i.run input
  | help topic => .success topic.page
  | version => .success (programName ++ ' ' :: CommandLine.version ++ ['\n'])

/-- What the program does with arguments and an input. -/
def run (arguments : List Text) (input : ByteArray) : Outcome :=
  match parse? arguments with
  | none => .usage
  | some request => request.answer input

end MarkupTransfer.CommandLine
