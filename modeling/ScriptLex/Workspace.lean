import ScriptLex.Lexer

/-!
# Diagnostics of open documents

An editor opens documents and replaces their texts. Each of these steps is answered by one
publication for the document of the step: the first lexical error of its text, if it has
one.
-/

namespace ScriptLex

/-- How grave a message is. A lexical error is the only thing that is reported. -/
inductive Severity where
  | error
deriving DecidableEq, Repr

def Severity.number : Severity → Nat
  | error => 1

/-- A message about a range on one line. Lines and characters count from zero here. -/
structure Diagnostic where
  line : Int
  startCharacter : Int
  endCharacter : Int
  message : Text
  severity : Severity
  /-- The tool that found it. -/
  source : Text
  code : Text
deriving DecidableEq, Repr

namespace Diagnostic

/-- An error of the lexer, over the characters that its snippet underlines. -/
def ofLexError (e : LexError) : Diagnostic where
  line := e.position.line - 1
  startCharacter := e.position.column - 1
  endCharacter := e.position.column - 1 + e.underlineLength
  message := e.message
  severity := .error
  source := "gmsc"
  code := e.cause.code

/-- The diagnostics of a text: its first lexical error or nothing. -/
def ofText (text : Text) : List Diagnostic :=
  match tokenize {} text with
  | .ok _ => []
  | .error e => [ofLexError e]

end Diagnostic

/-- What an editor reports. -/
inductive DocumentEvent where
  | opened (uri text : Text)
  | changed (uri text : Text)
deriving DecidableEq, Repr

structure Publication where
  uri : Text
  diagnostics : List Diagnostic
deriving DecidableEq, Repr

/-- What keeps the texts of documents for an editor, in a state that is its own. A document has
the text that was stored for it last; what it has before that is not known. -/
structure Workspace (σ : Type) where
  /-- The current text of a document. -/
  text : σ → Text → Text
  /-- Makes a text the current one of a document. -/
  store : σ → Text → Text → σ
  text_store : ∀ s uri t, text (store s uri t) uri = t

namespace Workspace

variable {σ : Type}

/-- Texts by document, laid over those that the documents had. -/
def overlay : Workspace (Text → Text) where
  text s uri := s uri
  store s uri t := fun other => if other = uri then t else s other
  text_store _ _ _ := if_pos rfl

/-- The publication for one document. -/
def validate (w : Workspace σ) (s : σ) (uri : Text) : Publication :=
  ⟨uri, Diagnostic.ofText (w.text s uri)⟩

/-- Stores the text of the step, then publishes what is wrong with it. -/
def handle (w : Workspace σ) (s : σ) : DocumentEvent → Publication × σ
  | .opened uri text | .changed uri text =>
    let s := w.store s uri text
    (w.validate s uri, s)

/-- The publications of a sequence of steps. -/
def handleAll (w : Workspace σ) (s : σ) : List DocumentEvent → List Publication
  | [] => []
  | event :: events =>
    let (publication, s) := w.handle s event
    publication :: w.handleAll s events

end Workspace

end ScriptLex
