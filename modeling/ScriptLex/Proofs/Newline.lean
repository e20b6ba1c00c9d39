import ScriptLex.Proofs.Line
import ScriptLex.Proofs.Lookahead
import ScriptLex.Proofs.Scan
import ScriptLex.Text.Newline

/-!
# Lexing and line ends

Where carriage returns stand only in front of line feeds, unifying the line ends of a script
drops them. Lexing does not see them go, if they stand in strings and comments: no lexeme looks
behind a line feed, and what is behind one has the column that it had. A carriage return
elsewhere is what the script is refused for.
-/

namespace ScriptLex

namespace Text

/-- Carriage returns stand only directly in front of line feeds. -/
def ReturnsPaired (t : Text) : Prop :=
  ∀ before after, t = before ++ '\r' :: after → after.head? = some '\n'

def withoutReturns (t : Text) : Text := t.filter (· ≠ '\r')

variable {t a b : Text} {c : Char}

theorem returnsPaired_cons :
    ReturnsPaired (c :: t) ↔ (c = '\r' → t.head? = some '\n') ∧ ReturnsPaired t := by
  constructor
  · intro h
    refine ⟨?_, ?_⟩
    · rintro rfl
      exact h [] t rfl
    · intro before after ht
      exact h (c :: before) after (by rw [ht]; rfl)
  · rintro ⟨hhead, htail⟩ before after h
    cases before with
    | nil =>
        obtain ⟨rfl, rfl⟩ := List.cons.inj h
        exact hhead rfl
    | cons x before =>
        obtain ⟨-, rfl⟩ := List.cons.inj h
        exact htail before after rfl

instance decidableReturnsPaired : (t : Text) → Decidable t.ReturnsPaired
  | [] => .isTrue (by simp [ReturnsPaired])
  | _ :: t =>
    have := decidableReturnsPaired t
    decidable_of_iff _ returnsPaired_cons.symm

/-! ## Dropping carriage returns -/

@[simp] theorem withoutReturns_nil : withoutReturns [] = [] := rfl

@[simp] theorem withoutReturns_append (a b : Text) :
    withoutReturns (a ++ b) = withoutReturns a ++ withoutReturns b :=
  List.filter_append a b

@[simp] theorem withoutReturns_return (t : Text) :
    withoutReturns ('\r' :: t) = withoutReturns t := rfl

theorem withoutReturns_cons (hc : c ≠ '\r') (t : Text) :
    withoutReturns (c :: t) = c :: withoutReturns t :=
  List.filter_cons_of_pos (by simpa using hc)

@[simp] theorem withoutReturns_lineFeed (t : Text) :
    withoutReturns ('\n' :: t) = '\n' :: withoutReturns t :=
  withoutReturns_cons (by decide) t

theorem withoutReturns_of_notMem (h : '\r' ∉ t) : withoutReturns t = t := by
  rw [withoutReturns, List.filter_eq_self]
  intro c hc
  have hne : c ≠ '\r' := by
    rintro rfl
    exact h hc
  simpa using hne

/-- A run of a class without the carriage return has none. -/
theorem Run.withoutReturns_eq {p : Char → Bool} {run after : Text} (h : Run p run after)
    (hp : p '\r' = false) : withoutReturns run = run := by
  apply withoutReturns_of_notMem
  intro hmem
  rw [h.all _ hmem] at hp
  cases hp

namespace ReturnsPaired

theorem right (h : ReturnsPaired (a ++ b)) : ReturnsPaired b := by
  intro before after hb
  exact h (a ++ before) after (by rw [hb, List.append_assoc])

theorem tail (h : ReturnsPaired (c :: t)) : ReturnsPaired t := (returnsPaired_cons.mp h).2

/-- A text may be cut off in front of anything but a line feed. -/
theorem left (h : ReturnsPaired (a ++ b)) (hb : b.head? ≠ some '\n') : ReturnsPaired a := by
  rintro before after rfl
  have hhead := h before (after ++ b) (by simp)
  cases after with
  | nil => exact absurd hhead hb
  | cons x after => exact hhead

theorem exists_cons (h : ReturnsPaired ('\r' :: t)) : ∃ b, t = '\n' :: b := by
  have hhead := (returnsPaired_cons.mp h).1 rfl
  cases t with
  | nil => cases hhead
  | cons x b =>
      obtain rfl := Option.some.inj hhead
      exact ⟨b, rfl⟩

/-- A text has no carriage return, or a first one with its line feed. -/
theorem cases (h : ReturnsPaired t) :
    '\r' ∉ t ∨ ∃ a b, t = a ++ '\r' :: '\n' :: b ∧ '\r' ∉ a := by
  by_cases hmem : '\r' ∈ t
  · obtain ⟨a, r, rfl, ha⟩ := List.eq_append_cons_of_mem hmem
    obtain ⟨b, rfl⟩ := h.right.exists_cons
    exact .inr ⟨a, b, rfl, ha⟩
  · exact .inl hmem

end ReturnsPaired

theorem withoutReturns_of_paired (ha : '\r' ∉ a) (b : Text) :
    withoutReturns (a ++ '\r' :: '\n' :: b) = a ++ '\n' :: withoutReturns b := by
  rw [withoutReturns_append, withoutReturns_of_notMem ha, withoutReturns_return,
    withoutReturns_lineFeed]

/-- Unifying line ends leaves no carriage return, -/
theorem return_notMem_unifyNewlines (t : Text) : '\r' ∉ t.unifyNewlines := by
  fun_induction unifyNewlines t with
  | case1 => simp
  | case2 t ih => simpa using ih
  | case3 c t _ ih =>
      by_cases hc : c = '\r'
      · simpa [hc] using ih
      · simpa [hc, Ne.symm hc] using ih

/-- and just drops the paired ones. -/
theorem unifyNewlines_eq (h : ReturnsPaired t) : t.unifyNewlines = t.withoutReturns := by
  fun_induction unifyNewlines t with
  | case1 => rfl
  | case2 t ih => rw [ih h.tail.tail, withoutReturns_return, withoutReturns_lineFeed]
  | case3 c t hpair ih =>
      have hc : c ≠ '\r' := by
        rintro rfl
        obtain ⟨b, rfl⟩ := h.exists_cons
        exact hpair b rfl rfl
      rw [ih h.tail, if_neg hc, withoutReturns_cons hc]

/-! ## Looking ahead -/

theorem ReturnsPaired.upToSeparator (h : ReturnsPaired t) :
    UpToSeparator (withoutReturns t) t := by
  rcases h.cases with hnone | ⟨a, b, rfl, ha⟩
  · rw [withoutReturns_of_notMem hnone]
    simpa using UpToSeparator.cutShort t []
  · rw [withoutReturns_of_paired ha]
    exact .continued (by decide) a _ _

/-- What stands on one line stood there before. -/
theorem ReturnsPaired.infix_of {q : Text} (h : ReturnsPaired t)
    (hclear : ∀ c ∈ q, isSeparator c = false) (hq : q <:+: withoutReturns t) : q <:+: t := by
  induction t with
  | nil => exact hq
  | cons c t ih =>
      by_cases hc : c = '\r'
      · subst hc
        exact (ih h.tail hq).trans (List.suffix_cons _ t).isInfix
      · rw [withoutReturns_cons hc, List.infix_cons_iff] at hq
        rw [List.infix_cons_iff]
        rcases hq with hstarts | hlater
        · rw [← withoutReturns_cons hc] at hstarts
          exact .inl (h.upToSeparator.starts hclear hstarts)
        · exact .inr (ih h.tail hlater)

/-! ## Last lines -/

theorem ReturnsPaired.return_notMem (h : ReturnsPaired t) (hfeed : '\n' ∉ t) : '\r' ∉ t := by
  rcases h.cases with hnone | ⟨a, b, rfl, -⟩
  · exact hnone
  · exact absurd (by simp) hfeed

theorem lastLine_withoutReturns (h : ReturnsPaired t) :
    (withoutReturns t).lastLine = t.lastLine := by
  rcases lastLine_cases t with hnone | ⟨a, b, rfl, hb⟩
  · rw [withoutReturns_of_notMem (h.return_notMem hnone)]
  · rw [withoutReturns_append, withoutReturns_lineFeed,
      withoutReturns_of_notMem (h.right.tail.return_notMem hb), lastLine_append _ hb,
      lastLine_append _ hb]

end Text

open Gap (IsGap)

open Text (ReturnsPaired withoutReturns)

variable {join : Bool} {mode : Mode} {t after : Text}

theorem StartsIf.of_withoutReturns (h : ReturnsPaired t) (hif : StartsIf (withoutReturns t)) :
    StartsIf t := by
  rcases h.cases with hnone | ⟨a, b, rfl, ha⟩
  · rwa [Text.withoutReturns_of_notMem hnone] at hif
  · rw [Text.withoutReturns_of_paired ha] at hif
    obtain ⟨words, rest, rfl, hwords⟩ := hif.of_append_lineFeed
    obtain ⟨hne, hblanks, hrest⟩ := hwords
    refine ⟨_, rest ++ '\r' :: '\n' :: b, List.append_assoc _ _ _, .intro hne hblanks ?_⟩
    cases rest with
    | nil =>
        intro c hc
        obtain rfl := Option.some.inj hc
        decide
    | cons x rest => exact hrest

/-! ## Gaps -/

theorem Gap.Piece.withoutReturns {piece : Text} (h : Piece piece after)
    (hpaired : ReturnsPaired (piece ++ after)) :
    Piece (withoutReturns piece) (withoutReturns after) := by
  cases h with
  | @blank c _ hc =>
      have hne : c ≠ '\r' := ne_of_class hc (by decide)
      rw [Text.withoutReturns_cons hne]
      exact .blank hc
  | @blockComment body _ hbody =>
      have hinner : ReturnsPaired body := by
        have hlonger : ReturnsPaired (body ++ '*' :: '/' :: after) := by
          simpa using hpaired.tail.tail
        exact hlonger.left (by simp)
      have hkept : Text.withoutReturns ('/' :: '*' :: (body ++ ['*', '/'])) =
          '/' :: '*' :: (Text.withoutReturns body ++ ['*', '/']) := by
        rw [Text.withoutReturns_cons (by decide), Text.withoutReturns_cons (by decide),
          Text.withoutReturns_append]
        rfl
      rw [hkept]
      exact .blockComment fun hin => hbody (hinner.infix_of (by simp [isSeparator, isBlank]) hin)
  | @lineComment body _ hbody =>
      have hkept : Text.withoutReturns ('/' :: '/' :: body) =
          '/' :: '/' :: Text.withoutReturns body := by
        rw [Text.withoutReturns_cons (by decide), Text.withoutReturns_cons (by decide)]
      rw [hkept]
      refine .lineComment ⟨fun c hc => hbody.all c (List.mem_of_mem_filter hc), ?_⟩
      cases after with
      | nil => simp
      | cons c after =>
          obtain rfl : c = '\n' := by simpa using hbody.stop c rfl
          simp

theorem Gap.IsGap.withoutReturns {gap : Text} (h : IsGap gap after)
    (hpaired : ReturnsPaired (gap ++ after)) :
    IsGap (withoutReturns gap) (withoutReturns after) := by
  induction h with
  | nil => exact .nil
  | @cons piece gap after hpiece _ ih =>
      rw [List.append_assoc] at hpaired
      have hkept := hpiece.withoutReturns hpaired
      rw [Text.withoutReturns_append] at hkept ⊢
      exact .cons hkept (ih hpaired.right)

/-! ## Strings -/

/-- A string is closed where it was. The escape of a carriage return becomes one of the line feed
behind it, and neither of them closes a string. -/
theorem StringLiteral.read?_withoutReturns {delim : Char} (hdelim : isDelimiter delim = true)
    (h : ReturnsPaired t) :
    (read? delim (withoutReturns t)).map Prod.snd =
      (read? delim t).map fun r => withoutReturns r.2 := by
  have hslash := (delimiter_ne hdelim).1
  have hreturn : delim ≠ '\r' := ne_of_class hdelim (by decide)
  have hfeed : delim ≠ '\n' := ne_of_class hdelim (by decide)
  fun_induction read? delim t with
  | case1 => rfl
  | case2 t =>
      rw [Text.withoutReturns_cons hreturn, read?_close]
      rfl
  | case3 =>
      rw [Text.withoutReturns_cons (by decide), Text.withoutReturns_nil, read?.eq_def]
      simp [hslash.symm]
  | case4 e t hne ih =>
      rw [Text.withoutReturns_cons (by decide)]
      by_cases he : e = '\r'
      · -- the backslash now stands before the line feed, which was a plain character
        subst he
        obtain ⟨b, rfl⟩ := h.tail.exists_cons
        have hih := ih h.tail.tail
        rw [Text.withoutReturns_lineFeed, read?_cons hfeed.symm (by decide), Option.map_map] at hih
        rw [Text.withoutReturns_return, Text.withoutReturns_lineFeed, read?_escaped hslash,
          Option.map_map, Option.map_map]
        exact hih
      · rw [Text.withoutReturns_cons he, read?_escaped hslash, Option.map_map, Option.map_map]
        exact ih h.tail.tail
  | case5 c t hne hplain ih =>
      by_cases hc : c = '\r'
      · subst hc
        rw [Text.withoutReturns_return, Option.map_map]
        exact ih h.tail
      · rw [Text.withoutReturns_cons hc, read?_cons hne hplain, Option.map_map, Option.map_map]
        exact ih h.tail

theorem StringLiteral.Open.withoutReturns (h : Open t) (hpaired : ReturnsPaired t) :
    Open (withoutReturns t) := by
  obtain ⟨delim, rest, rfl, -⟩ := id h
  obtain ⟨hdelim, hread⟩ := open_cons_iff.mp h
  have hsame := read?_withoutReturns hdelim hpaired.tail
  rw [hread, Option.map_none, Option.map_eq_none_iff] at hsame
  rw [Text.withoutReturns_cons (ne_of_class hdelim (by decide))]
  exact open_cons_iff.mpr ⟨hdelim, hsame⟩

theorem StringLiteral.Body.withoutReturns {delim : Char} {body value : Text}
    (hdelim : isDelimiter delim = true) (h : Body delim body value)
    (hpaired : ReturnsPaired (body ++ delim :: after)) :
    ∃ value', Body delim (withoutReturns body) value' := by
  have hsame := read?_withoutReturns hdelim hpaired
  rw [h.read? hdelim, Option.map_some, Option.map_eq_some_iff] at hsame
  obtain ⟨⟨value', after'⟩, hread, rfl⟩ := hsame
  obtain ⟨body', hbody, heq⟩ := exists_body_of_read? hread
  rw [Text.withoutReturns_append, Text.withoutReturns_cons (ne_of_class hdelim (by decide))] at heq
  exact ⟨value', List.append_cancel_right heq ▸ hbody⟩

/-! ## Lexemes -/

/-- Only strings have carriage returns in them. -/
theorem IsLexeme.string_or_return_notMem {lexeme : Text} {kind : Kind} {value : Option Text}
    (h : IsLexeme join lexeme kind value after) :
    (kind = .stringLiteral ∧ ∃ delim body value', StringLiteral.isDelimiter delim = true ∧
      StringLiteral.Body delim body value' ∧ lexeme = delim :: (body ++ [delim])) ∨
    '\r' ∉ lexeme := by
  cases h with
  | symbol hlongest _ _ =>
      have hnone : ∀ s ∈ Symbol.script, '\r' ∉ s.pattern := by decide +kernel
      exact .inr (hnone _ hlongest.mem)
  | keyword hword _ _ => exact .inr fun hmem => absurd (hword.run.all _ hmem) (by decide)
  | name hword _ => exact .inr fun hmem => absurd (hword.run.all _ hmem) (by decide)
  | elseIf _ hwords =>
      obtain ⟨-, hblanks, -⟩ := hwords
      right
      intro hmem
      rcases List.mem_append.mp hmem with helse | hwords
      · exact absurd helse (by decide)
      · rcases List.mem_append.mp hwords with hblank | hif
        · exact absurd (hblanks _ hblank) (by decide)
        · exact absurd hif (by decide)
  | number _ hrun => exact .inr fun hmem => absurd (hrun.all _ hmem) (by decide)
  | string hdelim hbody => exact .inl ⟨rfl, _, _, _, hdelim, hbody, rfl⟩

/-- A lexeme stays one, of the same kind. -/
theorem IsLexeme.withoutReturns {lexeme : Text} {kind : Kind} {value : Option Text}
    (h : IsLexeme join lexeme kind value after) (hpaired : ReturnsPaired (lexeme ++ after)) :
    ∃ value', IsLexeme join (withoutReturns lexeme) kind value' (withoutReturns after) := by
  rcases h.string_or_return_notMem with ⟨rfl, delim, body, _, hdelim, hbody, rfl⟩ | hnone
  · have hreturn : delim ≠ '\r' := ne_of_class hdelim (by decide)
    have hinner : ReturnsPaired (body ++ delim :: after) := by simpa using hpaired.tail
    obtain ⟨value', hbody'⟩ := hbody.withoutReturns hdelim hinner
    refine ⟨some value', ?_⟩
    rw [Text.withoutReturns_cons hreturn, Text.withoutReturns_append,
      Text.withoutReturns_cons hreturn]
    exact .string hdelim hbody'
  · rw [Text.withoutReturns_of_notMem hnone]
    exact ⟨value, h.of_upToSeparator hpaired.right.upToSeparator
      fun _ => StartsIf.of_withoutReturns hpaired.right⟩

theorem Segment.AllCut.withoutReturns {segments : List Segment} (h : AllCut join after segments)
    (hpaired : ReturnsPaired (texts segments ++ after)) :
    ∃ segments', AllCut join (withoutReturns after) segments' ∧
      texts segments' = withoutReturns (texts segments) := by
  induction segments with
  | nil => exact ⟨[], trivial, rfl⟩
  | cons s rest ih =>
      rw [texts_cons, text, List.append_assoc, List.append_assoc] at hpaired
      obtain ⟨segments', hcut, htexts⟩ := ih h.2 hpaired.right.right
      obtain ⟨value', hlexeme⟩ := h.1.lexeme.withoutReturns hpaired.right
      have hgap := h.1.gap.withoutReturns hpaired
      rw [Text.withoutReturns_append] at hgap hlexeme
      rw [Text.withoutReturns_append, ← htexts] at hgap
      rw [← htexts] at hlexeme
      refine ⟨⟨Text.withoutReturns s.gap, Text.withoutReturns s.lexeme, s.kind, value'⟩ ::
        segments', ⟨⟨hgap, hlexeme⟩, hcut⟩, ?_⟩
      rw [texts_cons, texts_cons, text, text, htexts, Text.withoutReturns_append,
        Text.withoutReturns_append]

/-! ## Tails -/

theorem Ends.withoutReturns (h : Ends mode t) (hpaired : ReturnsPaired t) :
    Ends mode (withoutReturns t) := by
  rcases h with rfl | ⟨hlenient, hopen⟩
  · exact .inl rfl
  · exact .inr ⟨hlenient, hopen.withoutReturns hpaired⟩

/-- What a text is no lexeme for stays, unless it is a carriage return. -/
theorem Head.Fits.withoutReturns {head : Head} (h : head.Fits mode t)
    (hpaired : ReturnsPaired t) (hlexeme : ∀ kind value after, head ≠ .lexeme kind value after)
    (hstray : head ≠ .stray '\r') : head.Fits mode (withoutReturns t) := by
  cases head with
  | endOfInput =>
      obtain rfl : t = [] := h
      rfl
  | lexeme kind value after => exact absurd rfl (hlexeme kind value after)
  | openComment =>
      obtain ⟨body, rfl, hbody⟩ := h
      refine ⟨Text.withoutReturns body, ?_, ?_⟩
      · rw [Text.withoutReturns_cons (by decide), Text.withoutReturns_cons (by decide)]
      · exact fun hin =>
          hbody (hpaired.tail.tail.infix_of (by simp [isSeparator, isBlank]) hin)
  | openString => exact StringLiteral.Open.withoutReturns h hpaired
  | hexColor digits =>
      obtain ⟨run, after, rfl, hrun, hdigits⟩ := h
      have hstop := hpaired.tail.right.upToSeparator.stop (by decide) (by decide) (by decide)
        hrun.stop
      refine ⟨run, Text.withoutReturns after, ?_, ⟨hrun.all, hstop⟩, hdigits⟩
      rw [Text.withoutReturns_cons (by decide), Text.withoutReturns_append,
        hrun.withoutReturns_eq (by decide)]
  | stray c =>
      obtain ⟨after, rfl, hblank, hdelim, hdollar, hdigit, hletter, hline, hnone⟩ := h
      have hc : c ≠ '\r' := by
        rintro rfl
        exact hstray rfl
      refine ⟨Text.withoutReturns after, Text.withoutReturns_cons hc after, hblank, hdelim, hdollar,
        hdigit, hletter, hline, ?_⟩
      rw [Text.withoutReturns_cons hc, Symbol.script_none_iff]
      obtain ⟨hsingle, htake⟩ := (Symbol.script_none_iff c after).mp hnone
      refine ⟨hsingle, fun htake' => htake ?_⟩
      have hstarts : ['!', '='] <+: Text.withoutReturns (c :: after) := by
        rw [Text.withoutReturns_cons hc, ← htake']
        exact List.take_prefix 2 _
      have hstarted := hpaired.upToSeparator.starts (by simp [isSeparator, isBlank]) hstarts
      exact (List.prefix_iff_eq_take.mp hstarted).symm

theorem Position.lineColumn_behind_withoutReturns (h : ReturnsPaired t) :
    (behind (withoutReturns t)).lineColumn = (behind t).lineColumn := by
  have hcount : (Text.withoutReturns t).count '\n' = t.count '\n' :=
    List.count_filter (by decide)
  have hlast : (Text.withoutReturns t).lastLineLength = t.lastLineLength := by
    rw [← Text.length_lastLine, ← Text.length_lastLine, Text.lastLine_withoutReturns h]
  rw [lineColumn, lineColumn, behind, behind, hcount, hlast]

/-- What is said of a carriage return that stands in no string and no comment. -/
def LexError.strayReturn : Text := "unknown token " ++ Quoted.quote ['\r']

/-- A tail offends for the same reason at the same place, unless the reason is a carriage
return. -/
theorem Offends.withoutReturns {before tail : Text} {e : LexError}
    (h : Offends mode before tail e) (hpaired : ReturnsPaired (before ++ tail))
    (hstray : e.message ≠ LexError.strayReturn) :
    ∃ e', Offends mode (withoutReturns before) (withoutReturns tail) e' ∧
      e'.message = e.message ∧ e'.position.lineColumn = e.position.lineColumn := by
  have htail := hpaired.right
  -- what offends is no line feed, so no pair is torn apart
  have hbefore : ReturnsPaired before := by
    obtain ⟨lexeme, rest, rfl, hlength, hfeed, -⟩ := h.exists_lexeme
    apply hpaired.left
    cases lexeme with
    | nil => exact absurd hlength (Nat.ne_of_lt e.length_pos)
    | cons c lexeme =>
        intro hhead
        obtain rfl := Option.some.inj hhead
        exact hfeed (by simp)
  refine ⟨{ e with
    position := Position.behind (Text.withoutReturns before)
    source := Text.withoutReturns before ++ Text.withoutReturns tail }, ⟨rfl, rfl, ?_⟩, rfl, ?_⟩
  · have hreason := h.reason
    cases hcause : e.cause with
    | unterminatedComment =>
        simp only [hcause] at hreason ⊢
        obtain ⟨hmessage, hlength, hfits⟩ := hreason
        exact ⟨hmessage, hlength, hfits.withoutReturns htail (by simp) (by simp)⟩
    | unterminatedString =>
        simp only [hcause] at hreason ⊢
        obtain ⟨hmessage, hlength, hmode, hfits⟩ := hreason
        exact ⟨hmessage, hlength, hmode, hfits.withoutReturns htail (by simp) (by simp)⟩
    | unsupportedFeature =>
        simp only [hcause] at hreason ⊢
        obtain ⟨hmessage, digits, hlength, hfits⟩ := hreason
        exact ⟨hmessage, digits, hlength, hfits.withoutReturns htail (by simp) (by simp)⟩
    | unknownToken =>
        simp only [hcause] at hreason ⊢
        obtain ⟨c, hmessage, hlength, hfits⟩ := hreason
        have hc : Head.stray c ≠ .stray '\r' := by
          rintro hsame
          obtain rfl := Head.stray.inj hsame
          exact hstray hmessage
        exact ⟨c, hmessage, hlength, hfits.withoutReturns htail (by simp) hc⟩
    | general =>
        simp only [hcause] at hreason
    | endMisuse =>
        simp only [hcause] at hreason
  · rw [h.position]
    exact Position.lineColumn_behind_withoutReturns hbefore

/-! ## Scripts -/

theorem Cut.exists_withoutReturns {source : Text} (c : Cut join source)
    (hpaired : ReturnsPaired source) :
    ∃ c' : Cut join (withoutReturns source), c'.tail = withoutReturns c.tail ∧
      c'.before = withoutReturns c.before := by
  have hsource := c.source_eq
  rw [hsource] at hpaired
  obtain ⟨segments, hcut, htexts⟩ := c.allCut.withoutReturns hpaired
  have hgap := c.isGap.withoutReturns hpaired.right
  rw [Text.withoutReturns_append] at hcut
  refine ⟨⟨segments, Text.withoutReturns c.gap, Text.withoutReturns c.tail, ?_, hcut, hgap⟩,
    rfl, ?_⟩
  · rw [htexts, ← Text.withoutReturns_append, ← Text.withoutReturns_append, ← hsource]
  · show Segment.texts segments ++ Text.withoutReturns c.gap = _
    rw [htexts, before, Text.withoutReturns_append]

theorem tokenize_withoutReturns_ok {tokens : List ValuedToken} (hpaired : ReturnsPaired t)
    (h : tokenize mode t = .ok tokens) :
    ∃ tokens', tokenize mode (withoutReturns t) = .ok tokens' := by
  obtain ⟨c, hends, -⟩ := exists_cut_of_ok h
  obtain ⟨c', htail, -⟩ := c.exists_withoutReturns hpaired
  have hpaired' : ReturnsPaired c.tail := by
    rw [← c.before_append_tail] at hpaired
    exact hpaired.right
  exact ⟨c'.stream, c'.tokenize_of_ends (htail ▸ hends.withoutReturns hpaired')⟩

/-- **A script is refused as it was without its carriage returns**, unless it is refused for one
of them. -/
theorem tokenize_withoutReturns_error {e : LexError} (hpaired : ReturnsPaired t)
    (h : tokenize mode t = .error e) (hstray : e.message ≠ LexError.strayReturn) :
    ∃ e', tokenize mode (withoutReturns t) = .error e' ∧ e'.message = e.message ∧
      e'.position.lineColumn = e.position.lineColumn := by
  obtain ⟨c, hoffends⟩ := exists_cut_of_error h
  obtain ⟨c', htail, hbefore⟩ := c.exists_withoutReturns hpaired
  rw [← c.before_append_tail] at hpaired
  obtain ⟨e', hoffends', hmessage, hplace⟩ := hoffends.withoutReturns hpaired hstray
  rw [← htail, ← hbefore] at hoffends'
  exact ⟨e', c'.tokenize_of_offends hoffends', hmessage, hplace⟩

/-! ## Carriage returns in messages -/

/-- No other character is written as a carriage return is. -/
theorem Quoted.eq_return_of_quote {c : Char} (h : quote [c] = quote ['\r']) : c = '\r' := by
  have hescape : escape (delimiter [c]) c = ['\\', 'r'] := by
    have hquote : quote ['\r'] = apostrophe :: (['\\', 'r'] ++ [apostrophe]) := by decide +kernel
    have hshape : quote [c] = delimiter [c] :: (escape (delimiter [c]) c ++ [delimiter [c]]) := by
      simp [quote]
    rw [hshape, hquote] at h
    exact (List.append_inj' (List.cons.inj h).2 rfl).1
  unfold escape at hescape
  split at hescape
  next hself =>
    obtain rfl : c = 'r' := by simpa using hescape
    exact absurd hself (by decide)
  next =>
    split at hescape
    next => exact absurd hescape (by decide)
    next =>
      split at hescape
      next hc => exact hc
      next =>
        split at hescape
        next => exact absurd hescape (by decide)
        next =>
          split at hescape
          next => simp at hescape
          next =>
            unfold codeEscape at hescape
            split at hescape
            next => simp at hescape
            next =>
              split at hescape
              next => simp at hescape
              next => simp at hescape

/-- A script without carriage returns is refused for none. -/
theorem message_ne_strayReturn {e : LexError} (h : tokenize mode t = .error e) (hnone : '\r' ∉ t) :
    e.message ≠ LexError.strayReturn := by
  obtain ⟨c, hoffends⟩ := exists_cut_of_error h
  have hreason := hoffends.reason
  split at hreason
  next =>
    rw [hreason.1]
    decide +kernel
  next =>
    rw [hreason.1]
    decide +kernel
  next =>
    rw [hreason.1]
    decide +kernel
  next =>
    obtain ⟨x, hmessage, -, after, htail, -⟩ := hreason
    rw [hmessage]
    intro hsame
    obtain rfl := Quoted.eq_return_of_quote (List.append_cancel_left hsame)
    apply hnone
    rw [← c.before_append_tail, htail]
    simp
  next => exact hreason.elim
  next => exact hreason.elim

end ScriptLex
