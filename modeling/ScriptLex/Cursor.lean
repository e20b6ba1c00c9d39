import ScriptLex.LexError
import ScriptLex.Text.Index

/-!
# Cursors

A cursor walks over a source one character at a time and counts lines and columns on the
way. The end of the source is seen once: reading it gives no character and marks the
cursor as exhausted, and reading again is a fault.

A cursor may be set to any integers. Its offset then indexes the source as indices often
do: below zero it counts from the end.
-/

namespace ScriptLex

structure Cursor where
  source : Text
  offset : Int := 0
  line : Int := 1
  /-- The characters consumed on the current line. -/
  column : Int := 0
  /-- The end has been read. -/
  exhausted : Bool := false
deriving DecidableEq, Repr

namespace Cursor

/-- Why a cursor refuses to read. -/
inductive Fault where
  /-- The end has been read before. -/
  | pastEnd
  /-- There is no character there, however the index is counted. -/
  | index (fault : IndexFault)
deriving DecidableEq, Repr

def atEnd (c : Cursor) : Bool := c.source.length ≤ c.offset

/-- The characters still to be read. -/
def unread (c : Cursor) : Text := c.source.drop c.offset.toNat

/-- The place of the next character. -/
def position (c : Cursor) : Position := ⟨c.line, c.column + 1, c.offset⟩

/-- The cursor behind the character `ch`, which it stands on. -/
def past (c : Cursor) (ch : Char) : Cursor :=
  if ch = '\n' then { c with offset := c.offset + 1, line := c.line + 1, column := 0 }
  else { c with offset := c.offset + 1, column := c.column + 1 }

/-- The character `ahead` places further on, none behind the end. -/
def peek (c : Cursor) (ahead : Int) : Except Fault (Option Char) :=
  if c.offset + ahead < c.source.length then
    match c.source.charAt (c.offset + ahead) with
    | .ok ch => .ok (some ch)
    | .error fault => .error (.index fault)
  else .ok none

/-- The next `size` characters, or as many as there are. -/
def window (c : Cursor) (size : Int) : Text :=
  c.source.slice c.offset (c.offset + size)

/-- Consumes a character; at the end it gives none, once. -/
def read (c : Cursor) : Except Fault (Option Char) × Cursor :=
  if c.exhausted then (.error .pastEnd, c)
  else if c.atEnd then (.ok none, { c with exhausted := true })
  else
    match c.source.charAt c.offset with
    | .ok ch => (.ok (some ch), c.past ch)
    | .error fault => (.error (.index fault), c)

/-- How many reads are left: one a character, and one for the end. -/
def readsLeft (c : Cursor) : Nat :=
  (c.source.length - c.offset).toNat + if c.exhausted then 0 else 1

/-- Every read that is not refused is one of those that were left. -/
theorem readsLeft_of_read {c d : Cursor} {x : Option Char} (h : c.read = (.ok x, d)) :
    d.readsLeft + 1 = c.readsLeft := by
  unfold read at h
  split at h
  next => cases h
  next hexhausted =>
    split at h
    next =>
      obtain ⟨-, rfl⟩ := Prod.mk.inj h
      simp [readsLeft, hexhausted]
    next hend =>
      split at h
      next ch _ =>
        obtain ⟨-, rfl⟩ := Prod.mk.inj h
        have hless : c.offset < c.source.length := by simpa [atEnd] using hend
        have hpast : (c.past ch).source = c.source ∧ (c.past ch).offset = c.offset + 1 ∧
            (c.past ch).exhausted = c.exhausted := by
          unfold past
          split <;> exact ⟨rfl, rfl, rfl⟩
        obtain ⟨hsource, hoffset, hsame⟩ := hpast
        rw [readsLeft, readsLeft, hsource, hoffset, hsame]
        omega
      next => cases h

/-- Reads `n` times. The first refusal stops it, and the cursor stays where that was. -/
def skip : (n : Nat) → Cursor → Except Fault Unit × Cursor
  | 0, c => (.ok (), c)
  | n + 1, c =>
    match c.read with
    | (.ok _, next) => skip n next
    | (.error fault, next) => (.error fault, next)

/-- The error of a read behind the end, at the place of the cursor. -/
def misuse (c : Cursor) : LexError where
  cause := .endMisuse
  message := "read past end of input (lexer crash)"
  position := c.position
  source := c.source
  length := 1

end Cursor

end ScriptLex
