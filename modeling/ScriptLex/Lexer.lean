import ScriptLex.Scanner

/-!
# Lexers

A lexer hands out the tokens of one source, one at each pull. The end of the source can be
pulled any number of times. The first error is final: every later pull gives it again. A lexer
is asked for one token at a time, with an error raised or handed back, or by iterating over it.
-/

namespace ScriptLex

/-- The error that a scan is stopped with, which left the cursor behind. -/
def Stop.error (c : Cursor) : Stop → LexError
  | refused _ => c.misuse
  | offends e => e

/-- What one pull comes to: a token with the value that belongs to it, or an error. -/
abbrev Outcome := Except LexError ValuedToken

structure Lexer where
  filename : Text
  mode : Mode
  cursor : Cursor
  /-- The token of the last pull that gave one. -/
  last : Option Token := none
  /-- The value of that token, if its kind carries one. -/
  value : Option Text := none
  /-- The error that ended the lexer. -/
  failure : Option LexError := none
deriving DecidableEq, Repr

namespace Lexer

/-- A lexer at the start of a source. -/
def ofSource (source : Text) (mode : Mode) (filename : Text) : Lexer :=
  { filename, mode, cursor := { source } }

/-- The line of the last token, at first that of the cursor. -/
def line (lx : Lexer) : Int :=
  match lx.last with
  | some token => token.line
  | none => lx.cursor.position.line

/-- The column of the last token, at first that of the cursor. -/
def column (lx : Lexer) : Int :=
  match lx.last with
  | some token => token.column
  | none => lx.cursor.position.column

/-- How many characters have been consumed. -/
def offset (lx : Lexer) : Int := lx.cursor.offset

/-- The next token, or the error that ended the lexer. A failing pull leaves the last
token and its value as they are. -/
def pull (lx : Lexer) : Except LexError Token × Lexer :=
  match lx.failure with
  | some error => (.error error, lx)
  | none =>
    match lx.cursor.scanToken lx.mode with
    | (.ok t, cursor) => (.ok t.token, { lx with cursor, last := some t.token, value := t.value })
    | (.error stop, cursor) =>
      let error := stop.error cursor
      (.error error, { lx with cursor, failure := some error })

/-- A pull together with the value that belongs to its token. -/
def pullValued (lx : Lexer) : Outcome × Lexer :=
  match lx.pull with
  | (.ok token, next) => (.ok ⟨token, next.value⟩, next)
  | (.error e, next) => (.error e, next)

/-- What a sequence of pulls gave, and the lexer behind it. -/
structure Run where
  tokens : List ValuedToken
  failure : Option LexError
  lexer : Lexer
deriving DecidableEq, Repr

/-- Pulls until the end of the input or an error, and at most `limit` times. -/
def take : (limit : Nat) → Lexer → Run
  | 0, lx => ⟨[], none, lx⟩
  | limit + 1, lx =>
    match lx.pull with
    | (.error error, lx) => ⟨[], some error, lx⟩
    | (.ok token, lx) =>
      if token.kind = .endOfInput then ⟨[⟨token, lx.value⟩], none, lx⟩
      else
        let run := take limit lx
        { run with tokens := ⟨token, lx.value⟩ :: run.tokens }

/-- Pulls until the end of the input or an error. Each token before that takes a
character at least, so one pull more than there are characters is enough. -/
def run (lx : Lexer) : Run := lx.take (lx.cursor.unread.length + 1)

/-- One way to ask a lexer for tokens. -/
inductive Call where
  /-- One token; an error is raised. -/
  | next
  /-- One token; an error is handed back in its place. -/
  | tryNext
  /-- A fresh iteration, up to the end of the input or an error, which is raised. With a limit
  it is left after so many tokens. -/
  | iterate (limit : Option Nat)
deriving DecidableEq, Repr

/-- What a call is answered with. The value beside a token is the one that the lexer shows
right after it. -/
inductive Reply where
  | returned (t : ValuedToken)
  | raised (e : LexError)
  | handedBack (e : LexError)
  | iterated (tokens : List ValuedToken) (failure : Option LexError)
deriving DecidableEq, Repr

def answer (lx : Lexer) : Call → Reply × Lexer
  | .next =>
    match lx.pullValued with
    | (.ok t, next) => (.returned t, next)
    | (.error e, next) => (.raised e, next)
  | .tryNext =>
    match lx.pullValued with
    | (.ok t, next) => (.returned t, next)
    | (.error e, next) => (.handedBack e, next)
  | .iterate (some limit) =>
    let run := lx.take limit
    (.iterated run.tokens run.failure, run.lexer)
  | .iterate none =>
    let run := lx.run
    (.iterated run.tokens run.failure, run.lexer)

end Lexer

/-- All tokens of a source, the end of the input included, or the first error. -/
def tokenize (mode : Mode) (source : Text) : Except LexError (List ValuedToken) :=
  let run := (Lexer.ofSource source mode LexError.defaultFilename).run
  match run.failure with
  | some error => .error error
  | none => .ok run.tokens

end ScriptLex
