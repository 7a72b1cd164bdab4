import MarkupTransfer.Draft.Basic
import MarkupTransfer.Draft.Claims
import MarkupTransfer.Dialect
import MarkupTransfer.Markup.Reference
import MarkupTransfer.Sentence.Basic
/-!
# From drafts to sentences

The accepted marks of a draft become the tokens of a sentence, and what stands between them in the
source becomes their spaces.
-/

namespace MarkupTransfer

/-- What becomes of a mark that asks for a tag where there is none. -/
inductive MalformedPolicy
  | abort
  | skip
  deriving DecidableEq, Repr

/-- How sentences are built. -/
structure Options where
  malformed : MalformedPolicy
  dialect : DialectPolicy
  deriving DecidableEq, Repr

namespace Options

/-- Malformed tags are errors, and no dialect applies. -/
def standard : Options := ⟨.abort, .plain⟩

end Options

/-- Why a sentence cannot be built. -/
inductive BuildError
  | malformedTag (source : Text) (error : MalformedTag)
  | notInitialized
  | edit (error : EditError)
  deriving DecidableEq, Repr

namespace BuildError

/-- How the error is reported. -/
def message : BuildError → Text
  | malformedTag source error =>
    "Failed to build sentence for string ".toList ++ source.quoted ++ ": ".toList ++ error.message
  | notInitialized => "SentenceBuilder used before initialize()".toList
  | edit error => error.message

end BuildError

/-! ## Spaces and tokens -/

/-- The text between two places of the source, decoded, if there is any. -/
def gap (source : Text) (start stop : Nat) : Option Space :=
  if start < stop then some (.literal (Markup.unescape (source.slice start stop))) else none

/-- The space of two tokens that touch: a boundary if just one of them is a tag. -/
def touching (left right : Role) : Option Space :=
  if left.isTag = right.isTag then none else some .virtual

namespace Accepted

/-- The space between two neighbours. -/
def between (source : Text) (a b : Accepted) : Option Space :=
  gap source a.mark.stop b.mark.start <|> touching a.role b.role

/-- The space behind a mark, given the marks that follow it. -/
def spaceAfter (source : Text) (a : Accepted) : List Accepted → Option Space
  | [] => gap source a.mark.stop source.size
  | b :: _ => a.between source b

/-- The text of a token: a tag is taken as it is, a word is decoded. -/
def text (source : Text) (a : Accepted) : Text :=
  let raw := source.slice a.mark.start a.mark.stop
  if a.role.isTag then raw else Markup.unescape raw

/-- The tokens of accepted marks, where a mark that is no tag leaves an error. `count` words and the
space `left` have gone before. -/
def tokensFrom (source : Text) (count : Nat) (left : Option Space) :
    List Accepted → List (Except MalformedTag Token)
  | [] => []
  | a :: rest =>
    let right := a.spaceAfter source rest
    a.role.token (a.text source) a.mark.placeholder left right count ::
      tokensFrom source (if a.role.isTag then count else count + 1) right rest

/-- The tokens of accepted marks. -/
def tokens (source : Text) : List Accepted → List (Except MalformedTag Token)
  | [] => []
  | a :: rest => tokensFrom source 0 (gap source 0 a.mark.start) (a :: rest)

end Accepted

namespace MalformedPolicy

/-- The tokens that are kept: all of them if none is malformed, or those that are not malformed. -/
def select (p : MalformedPolicy) (results : List (Except MalformedTag Token)) :
    Except MalformedTag (List Token) :=
  match p with
  | abort => results.mapM id
  | skip => .ok (results.filterMap Except.toOption)

end MalformedPolicy

/-- Flag every word that has a tag with a space on its right directly behind it. -/
def flagWords (tags : List Tag) (words : List Word) : List Word :=
  words.mapIdx fun i w =>
    if tags.any fun t => t.rightSpace.isSome && t.position == i + 1 then
      { w with tagRightSpaceRequired := true }
    else w

namespace Draft

/-- The sentence that tokens make, with their tags retyped and their words flagged. -/
def assemble (options : Options) (annotations : Annotations) (tokens : List Token) : Sentence :=
  let tags := options.dialect.retype (tokens.filterMap Token.tag?)
  { Sentence.ofTokens (flagWords tags (tokens.filterMap Token.word?)) tags with
    annotations := annotations }

/-- The sentence that a draft has come to. -/
def build (options : Options) (d : Draft) : Except BuildError Sentence :=
  match d.source with
  | none => .error .notInitialized
  | some source =>
    match options.malformed.select (Accepted.tokens source (Mark.accepted d.marks)) with
    | .error e => .error (.malformedTag source e)
    | .ok tokens => .ok (assemble options d.annotations tokens)

end Draft

end MarkupTransfer
