import ScriptLex.Proofs.Cursor
import ScriptLex.Proofs.Lexeme

/-!
# What the loops come to

Where a cursor stands between what it has consumed and what is unread, each loop of a scan
takes a piece of the unread text that is known beforehand, and leaves the cursor behind it. A
scan in front of a gap is therefore the scan behind that gap, and there the head of the unread
text says what it comes to. Since a loop that went on behind the end of the source would be
refused there, and none of these pieces is a refusal, no read is made behind the end.
-/

namespace ScriptLex

namespace Cursor

/-! ## Single steps -/

theorem glance_between (before unread : Text) (n : Nat) :
    (between before unread).glance n = unread[n]? := by
  rw [glance, peek_eq_getElem? _ (Int.natCast_nonneg _), unread_between]

theorem glance_between_zero (before unread : Text) :
    (between before unread).glance 0 = unread.head? := by
  rw [glance_between, List.head?_eq_getElem?]

theorem glance_between_append (before piece rest : Text) (n : Nat) :
    (between before (piece ++ rest)).glance (piece.length + n) = rest[n]? := by
  rw [glance_between, List.getElem?_append_right (Nat.le_add_right _ _), Nat.add_sub_cancel_left]

theorem glance_spent (source : Text) : (spent source).glance 0 = none := by
  have hpeek := peek_eq_getElem? (spent source) (Int.natCast_nonneg _) 0
  rw [unread_spent] at hpeek
  rw [glance, hpeek]
  rfl

theorem consume_between (before rest : Text) (ch : Char) :
    (between before (ch :: rest)).consume = (.ok (some ch), between (before ++ [ch]) rest) := by
  rw [consume, read_between]

theorem consume_between_nil (source : Text) :
    (between source []).consume = (.ok none, spent source) := by
  rw [consume, read_between_nil]

theorem advance_between (before piece rest : Text) :
    (between before (piece ++ rest)).advance piece.length =
      (.ok (), between (before ++ piece) rest) := by
  rw [advance, skip_between]

/-! ## Loops over one class of characters -/

variable {p : Char → Bool}

theorem any_head? {t : Text} (h : ∀ c ∈ t.head?, p c = false) : t.head?.any p = false := by
  cases t with
  | nil => rfl
  | cons c t => exact h c rfl

theorem readWhile_of_read {c next : Cursor} {x : Option Char} (hany : (c.glance 0).any p = true)
    (hread : c.read = (.ok x, next)) :
    c.readWhile p =
      (next.readWhile p).andThen fun text last => (.ok (x.toList ++ text), last) := by
  rw [readWhile, if_pos hany]
  split
  next hx =>
    rw [hread] at hx
    cases hx
    rfl
  next hx =>
    rw [hread] at hx
    cases hx

theorem readWhile_of_stop {c : Cursor} (hstop : (c.glance 0).any p = false) :
    c.readWhile p = (.ok [], c) := by
  rw [readWhile, if_neg (by rw [hstop]; exact Bool.false_ne_true)]

/-- The loop takes the characters of its class that stand in front of it. -/
theorem readWhile_between (before : Text) {piece rest : Text} (h : Text.Run p piece rest) :
    (between before (piece ++ rest)).readWhile p = (.ok piece, between (before ++ piece) rest) := by
  induction piece generalizing before with
  | nil =>
      rw [List.append_nil]
      refine readWhile_of_stop ?_
      rw [List.nil_append, glance_between_zero]
      exact any_head? h.stop
  | cons c piece ih =>
      have hany : ((between before (c :: piece ++ rest)).glance 0).any p = true := by
        rw [glance_between_zero]
        exact h.all c List.mem_cons_self
      rw [readWhile_of_read hany (read_between before (piece ++ rest) c), ih _ h.tail,
        List.append_assoc]
      rfl

theorem readWhile_takeWhile (p : Char → Bool) (before t : Text) :
    (between before t).readWhile p =
      (.ok (t.takeWhile p), between (before ++ t.takeWhile p) (t.dropWhile p)) := by
  have hread := readWhile_between before (Text.run_takeWhile p t)
  rwa [List.takeWhile_append_dropWhile] at hread

theorem readWhile_spent (source : Text) : (spent source).readWhile p = (.ok [], spent source) := by
  refine readWhile_of_stop ?_
  rw [glance_spent]
  rfl

/-- Looking ahead over a class passes as many characters as reading over it would take. -/
theorem placeAfter_between (before passed : Text) {piece rest : Text}
    (h : Text.Run p piece rest) :
    (between before (passed ++ (piece ++ rest))).placeAfter p passed.length =
      passed.length + piece.length := by
  induction piece generalizing passed with
  | nil =>
      have hstop : (between before (passed ++ rest)).glance passed.length = rest.head? := by
        rw [List.head?_eq_getElem?]
        exact glance_between_append before passed rest 0
      rw [List.nil_append, placeAfter, hstop, any_head? h.stop]
      rfl
  | cons c piece ih =>
      have hnext := ih (passed ++ [c]) h.tail
      rw [List.append_assoc, List.length_append] at hnext
      have hshown : (between before (passed ++ (c :: piece ++ rest))).glance passed.length =
          some c := glance_between_append before passed (c :: piece ++ rest) 0
      rw [placeAfter, hshown, Option.any_some, if_pos (h.all c List.mem_cons_self)]
      exact hnext.trans (by simp only [List.length_cons, List.length_nil]; omega)

/-! ## Comments -/

variable {t after : Text}

theorem readBlock_between (start : Position) (before t : Text) (c : Char) :
    (between before (c :: t)).readBlock start =
      if c = '*' ∧ t.head? = some '/' then
        (between (before ++ [c]) t).consume.andThen fun _ last => (.ok (), last)
      else (between (before ++ [c]) t).readBlock start := by
  rw [readBlock]
  split <;> rename_i hread <;> rw [read_between] at hread <;> cases hread
  rw [glance_between_zero]

theorem readBlock_between_nil (start : Position) (source : Text) :
    (between source []).readBlock start =
      (.error (.offends (.spanning .unterminatedComment "block comment reaches end of input" start
        source 2)), spent source) := by
  rw [readBlock]
  split <;> rename_i hread <;> rw [read_between_nil] at hread <;> cases hread
  rw [source_between, List.append_nil]

/-- A block comment is read up to its first `*/`. -/
theorem readBlock_of_close (start : Position) (h : Gap.afterClose? t = some after) :
    ∃ closed, t = closed ++ after ∧ ∀ before,
      (between before t).readBlock start = (.ok (), between (before ++ closed) after) := by
  fun_induction Gap.afterClose? t with
  | case1 => cases h
  | case2 t =>
      obtain rfl : t = after := by simpa using h
      refine ⟨['*', '/'], rfl, fun before => ?_⟩
      rw [readBlock_between, if_pos ⟨rfl, rfl⟩, consume_between, List.append_assoc]
      rfl
  | case3 c t hno ih =>
      obtain ⟨closed, rfl, hread⟩ := ih h
      refine ⟨c :: closed, rfl, fun before => ?_⟩
      rw [readBlock_between, if_neg, hread, List.append_assoc]
      · rfl
      · rintro ⟨rfl, hhead⟩
        obtain ⟨t, ht⟩ := List.head?_eq_some_iff.mp hhead
        exact hno t rfl ht

/-- Without one it is read to the end. -/
theorem readBlock_of_open (start : Position) (h : Gap.afterClose? t = none) (before : Text) :
    (between before t).readBlock start =
      (.error (.offends (.spanning .unterminatedComment "block comment reaches end of input" start
        (before ++ t) 2)), spent (before ++ t)) := by
  fun_induction Gap.afterClose? t generalizing before with
  | case1 => rw [readBlock_between_nil, List.append_nil]
  | case2 => cases h
  | case3 c t hno ih =>
      rw [readBlock_between, if_neg, ih h, List.append_assoc]
      · rfl
      · rintro ⟨rfl, hhead⟩
        obtain ⟨t, ht⟩ := List.head?_eq_some_iff.mp hhead
        exact hno t rfl ht

/-! ## Strings -/

theorem readBody_between_nil (delim : Char) (source : Text) :
    (between source []).readBody delim = (.ok none, spent source) := by
  rw [readBody]
  split <;> rename_i hread <;> rw [read_between_nil] at hread <;> cases hread
  rfl

theorem readBody_between_close (delim : Char) (before t : Text) :
    (between before (delim :: t)).readBody delim =
      (.ok (some []), between (before ++ [delim]) t) := by
  rw [readBody]
  split <;> rename_i hread <;> rw [read_between] at hread <;> cases hread
  rw [if_pos rfl]

theorem readBody_between_plain {delim c : Char} (hdelim : c ≠ delim) (hslash : c ≠ '\\')
    (before t : Text) :
    (between before (c :: t)).readBody delim =
      ((between (before ++ [c]) t).readBody delim).andThen fun value last =>
        (.ok (value.map (StringLiteral.plain c :: ·)), last) := by
  rw [readBody]
  split <;> rename_i hread <;> rw [read_between] at hread <;> cases hread
  rw [if_neg hdelim, if_neg hslash]

theorem readBody_between_slash {delim : Char} (hdelim : '\\' ≠ delim) (before : Text) :
    (between before ['\\']).readBody delim = (.ok none, spent (before ++ ['\\'])) := by
  rw [readBody]
  split <;> rename_i hread <;> rw [read_between] at hread <;> cases hread
  rw [if_neg hdelim, if_pos rfl]
  split <;> rename_i hread <;> rw [read_between_nil] at hread <;> cases hread
  rfl

theorem readBody_between_escape {delim : Char} (hdelim : '\\' ≠ delim) (before t : Text)
    (c : Char) :
    (between before ('\\' :: c :: t)).readBody delim =
      ((between (before ++ ['\\', c]) t).readBody delim).andThen fun value last =>
        (.ok (value.map (StringLiteral.escaped delim c ++ ·)), last) := by
  rw [readBody]
  split <;> rename_i hread <;> rw [read_between] at hread <;> cases hread
  rw [if_neg hdelim, if_pos rfl]
  split <;> rename_i hread <;> rw [read_between] at hread <;> cases hread
  rw [List.append_assoc]
  rfl

/-- A body is read up to the delimiter that closes it. -/
theorem readBody_of_read? {delim : Char} {value : Text}
    (h : StringLiteral.read? delim t = some (value, after)) :
    ∃ closed, t = closed ++ after ∧ ∀ before,
      (between before t).readBody delim = (.ok (some value), between (before ++ closed) after) := by
  fun_induction StringLiteral.read? delim t generalizing value with
  | case1 => cases h
  | case2 t =>
      obtain ⟨rfl, rfl⟩ : [] = value ∧ t = after := by simpa using h
      exact ⟨[delim], rfl, fun before => readBody_between_close delim before t⟩
  | case3 => cases h
  | case4 c t hdelim ih =>
      obtain ⟨⟨v, r⟩, hread, heq⟩ := Option.map_eq_some_iff.mp h
      obtain ⟨rfl, rfl⟩ := Prod.mk.inj heq
      obtain ⟨closed, rfl, hbody⟩ := ih hread
      refine ⟨'\\' :: c :: closed, rfl, fun before => ?_⟩
      rw [readBody_between_escape hdelim, hbody, List.append_assoc]
      rfl
  | case5 c t hdelim hslash ih =>
      obtain ⟨⟨v, r⟩, hread, heq⟩ := Option.map_eq_some_iff.mp h
      obtain ⟨rfl, rfl⟩ := Prod.mk.inj heq
      obtain ⟨closed, rfl, hbody⟩ := ih hread
      refine ⟨c :: closed, rfl, fun before => ?_⟩
      rw [readBody_between_plain hdelim hslash, hbody, List.append_assoc]
      rfl

/-- Without one it is read to the end, which may come right behind a backslash. -/
theorem readBody_of_open {delim : Char} (h : StringLiteral.read? delim t = none)
    (before : Text) : (between before t).readBody delim = (.ok none, spent (before ++ t)) := by
  fun_induction StringLiteral.read? delim t generalizing before with
  | case1 => rw [readBody_between_nil, List.append_nil]
  | case2 => cases h
  | case3 hdelim => exact readBody_between_slash hdelim before
  | case4 c t hdelim ih =>
      rw [readBody_between_escape hdelim, ih (Option.map_eq_none_iff.mp h), List.append_assoc]
      rfl
  | case5 c t hdelim hslash ih =>
      rw [readBody_between_plain hdelim hslash, ih (Option.map_eq_none_iff.mp h),
        List.append_assoc]
      rfl

/-! ## The head of the unread text -/

/-- The token that the head of `unread` says, behind `before`, and the cursor that a scan leaves
behind. -/
def scanHead (mode : Mode) (before unread : Text) : Scanned ValuedToken :=
  let start := Position.behind before
  let source := before ++ unread
  match Head.ofText mode unread with
  | .endOfInput => (.ok (.startingAt start .endOfInput none), spent source)
  | .lexeme kind value rest =>
    (.ok (.startingAt start kind value),
      between (before ++ unread.take (unread.length - rest.length)) rest)
  | .openComment =>
    (.error (.offends (.spanning .unterminatedComment "block comment reaches end of input" start
      source 2)), spent source)
  | .openString =>
    if mode.lenientStrings then (.ok (.startingAt start .endOfInput none), spent source)
    else
      (.error (.offends (.spanning .unterminatedString "string literal reaches end of input" start
        source 1)), spent source)
  | .hexColor digits =>
    (.error (.offends (.spanning .unsupportedFeature "hex color literals are not supported" start
      source (1 + digits : Nat))), between before unread)
  | .stray ch =>
    (.error (.offends (.spanning .unknownToken ("unknown token " ++ Quoted.quote [ch]) start
      source 1)), between before unread)

variable {mode : Mode}

/-- A lexeme is taken off the text that starts with it. -/
theorem scanHead_lexeme {lexeme rest : Text} {kind : Kind} {value : Option Text}
    (ht : t = lexeme ++ rest) (h : Head.ofText mode t = .lexeme kind value rest)
    (before : Text) :
    scanHead mode before t =
      (.ok (.startingAt (Position.behind before) kind value), between (before ++ lexeme) rest) := by
  have hlength : (lexeme ++ rest).length - rest.length = lexeme.length := by simp
  simp only [scanHead, h]
  rw [ht, hlength, List.take_left]

theorem scanNumber_between (before : Text) {c : Char} (hc : isDigit c = true) (t : Text) :
    (between before (c :: t)).scanNumber (Position.behind before) =
      scanHead mode before (c :: t) := by
  rw [scanNumber, readWhile_takeWhile,
    scanHead_lexeme List.takeWhile_append_dropWhile.symm (Head.ofText_number mode hc t)]
  rfl

/-! ### Words -/

theorem takeTrailingIf_run {blanks rest : Text} (h : Text.Run isBlank blanks rest)
    (before : Text) :
    (between before (blanks ++ rest)).takeTrailingIf =
      if blanks.length = 0 ∨ rest[0]? ≠ some 'i' ∨ rest[1]? ≠ some 'f' then
        (.ok false, between before (blanks ++ rest))
      else if rest[2]?.any isWordChar then (.ok false, between before (blanks ++ rest))
      else ((between before (blanks ++ rest)).advance (blanks.length + 2)).andThen fun _ c =>
        (.ok true, c) := by
  have hplace : (between before (blanks ++ rest)).placeAfter isBlank 0 = blanks.length :=
    (placeAfter_between before [] h).trans (Nat.zero_add _)
  have hshows := glance_between_append before blanks rest
  have hfirst := hshows 0
  rw [Nat.add_zero] at hfirst
  simp only [takeTrailingIf, hplace, hfirst, hshows]

/-- An `if` behind blanks is taken. -/
theorem takeTrailingIf_between {words rest : Text} (h : TrailingIf words rest) (before : Text) :
    (between before (words ++ rest)).takeTrailingIf =
      (.ok true, between (before ++ words) rest) := by
  have htake := advance_between before words rest
  cases h with
  | @intro blanks _ hne hblanks hafter =>
      have hrun : Text.Run isBlank blanks ('i' :: 'f' :: rest) := ⟨hblanks, by simp [isBlank]⟩
      have hlength : blanks.length ≠ 0 := fun hzero => hne (List.length_eq_zero_iff.mp hzero)
      have hwhole : ('i' :: 'f' :: rest)[2]?.any isWordChar = false := by
        rw [List.getElem?_cons_succ, List.getElem?_cons_succ, ← List.head?_eq_getElem?]
        exact any_head? hafter
      rw [List.append_assoc, List.length_append] at htake
      rw [List.append_assoc]
      refine (takeTrailingIf_run hrun before).trans ?_
      rw [if_neg (by simp [hlength]), hwhole, if_neg Bool.false_ne_true]
      exact congrArg (Scanned.andThen · fun _ c => (.ok true, c)) htake

/-- Anything else is left. -/
theorem takeTrailingIf_between_none (h : Head.afterIf? t = none) (before : Text) :
    (between before t).takeTrailingIf = (.ok false, between before t) := by
  have htaken := takeTrailingIf_run (Text.run_takeWhile isBlank t) before
  rw [List.takeWhile_append_dropWhile] at htaken
  rw [htaken]
  unfold Head.afterIf? at h
  split
  next => rfl
  next hword =>
    -- the blanks and the word stand there, so what follows must continue the word
    obtain ⟨hblanks, hfirst, hsecond⟩ : ¬ (t.takeWhile isBlank).length = 0 ∧
        (t.dropWhile isBlank)[0]? = some 'i' ∧ (t.dropWhile isBlank)[1]? = some 'f' := by
      simpa only [not_or, not_not] using hword
    generalize t.takeWhile isBlank = blanks at h hblanks
    generalize t.dropWhile isBlank = rest at h hfirst hsecond ⊢
    rcases blanks with _ | ⟨b, bs⟩
    · exact absurd rfl hblanks
    rcases rest with _ | ⟨i, _ | ⟨f, rest⟩⟩
    · cases hfirst
    · cases hsecond
    obtain rfl : i = 'i' := Option.some.inj hfirst
    obtain rfl : f = 'f' := Option.some.inj hsecond
    have hany : rest.head?.any isWordChar = true := by
      by_contra hwhole
      simp [hwhole] at h
    rw [List.head?_eq_getElem?] at hany
    exact if_pos hany

theorem scanWord_between (before : Text) {c : Char} (hc : isWordStart c = true) (t : Text) :
    (between before (c :: t)).scanWord mode (Position.behind before) =
      scanHead mode before (c :: t) := by
  obtain ⟨word, rest, ht, hword⟩ := exists_wholeWord hc t
  have hhead := Head.ofText_wholeWord mode hword
  have hread := readWhile_between before hword.run
  rw [ht, scanWord, hread]
  dsimp only [Scanned.andThen]
  cases hkind : Keyword.kind? word with
  | none =>
      rw [hkind] at hhead
      rw [scanHead_lexeme rfl hhead]
  | some kind =>
      rw [hkind] at hhead
      by_cases hjoin : kind = .elseWord ∧ mode.joinElseIf = true
      · simp only [if_pos hjoin] at hhead ⊢
        cases hif : Head.afterIf? rest with
        | none =>
            rw [hif] at hhead
            rw [takeTrailingIf_between_none hif, scanHead_lexeme rfl hhead]
            rfl
        | some behind =>
            rw [hif] at hhead
            obtain ⟨words, hwords, rfl⟩ := exists_trailingIf_of_afterIf? hif
            rw [takeTrailingIf_between hwords,
              scanHead_lexeme (List.append_assoc word words behind).symm hhead, List.append_assoc]
            rfl
      · simp only [if_neg hjoin] at hhead ⊢
        rw [scanHead_lexeme rfl hhead]

/-! ### The other forms -/

theorem scanString_between (before : Text) {c : Char}
    (hc : StringLiteral.isDelimiter c = true) (t : Text) :
    (between before (c :: t)).scanString mode (Position.behind before) c =
      scanHead mode before (c :: t) := by
  have hhead := Head.ofText_string mode hc t
  rw [scanString, consume_between]
  show ((between (before ++ [c]) t).readBody c).andThen _ = _
  unfold Head.ofString at hhead
  cases hread : StringLiteral.read? c t with
  | none =>
      rw [hread] at hhead
      rw [readBody_of_open hread, List.append_assoc]
      simp only [scanHead, hhead, Scanned.andThen, source_spent]
      rfl
  | some result =>
      obtain ⟨value, rest⟩ := result
      rw [hread] at hhead
      obtain ⟨closed, rfl, hbody⟩ := readBody_of_read? hread
      have ht : c :: (closed ++ rest) = (c :: closed) ++ rest := rfl
      rw [hbody, scanHead_lexeme ht hhead, List.append_assoc]
      rfl

theorem scanSymbol_between (before : Text) {c : Char}
    (hhead : Head.ofText mode (c :: t) = Head.ofSymbol c (c :: t)) :
    (between before (c :: t)).scanSymbol (Position.behind before) c =
      scanHead mode before (c :: t) := by
  unfold Head.ofSymbol at hhead
  rw [scanSymbol, window_eq_take _ (Int.natCast_nonneg _), unread_between]
  cases hmatch : SymbolTable.script.longestMatch? ((c :: t).take SymbolTable.lookahead) with
  | none =>
      rw [hmatch] at hhead
      simp only [scanHead, hhead]
      rfl
  | some symbol =>
      rw [hmatch] at hhead
      obtain ⟨rest, hrest⟩ := (SymbolTable.script_match_eq_some_iff.mp hmatch).starts
      have hbehind : (c :: t).drop symbol.pattern.length = rest := by
        rw [← hrest, List.drop_left]
      have hlexeme : Head.ofText mode (c :: t) = .lexeme symbol.kind none rest := by
        rw [hhead, ← hbehind]
      rw [scanHead_lexeme hrest.symm hlexeme, ← hrest]
      show ((between before (symbol.pattern ++ rest)).advance symbol.pattern.length).andThen _ = _
      rw [advance_between]
      rfl

/-- In front of a lexeme or what is none, a scan goes by the head of the unread text. -/
theorem scanLexeme_between (before : Text) {c : Char}
    (hcomment : ¬ (c = '/' ∧ t.head? = some '*')) :
    (between before (c :: t)).scanLexeme mode (Position.behind before) c =
      scanHead mode before (c :: t) := by
  rw [scanLexeme]
  split
  next hdelim => exact scanString_between before hdelim t
  next hdelim =>
    split
    next hdollar =>
      subst hdollar
      have hplace := placeAfter_between before ['$'] (Text.run_takeWhile isAlphanumeric t)
      rw [List.takeWhile_append_dropWhile] at hplace
      have hlength : (between before ('$' :: t)).placeAfter isAlphanumeric 1 =
          1 + (t.takeWhile isAlphanumeric).length := hplace
      rw [hlength]
      rfl
    next hdollar =>
      split
      next hdigit => exact scanNumber_between before hdigit t
      next hdigit =>
        split
        next hword => exact scanWord_between before hword t
        next hword =>
          refine scanSymbol_between before ?_
          simp [Head.ofText, hcomment, hdelim, hdollar, hdigit, hword]

/-! ## One token -/

/-- What a scan does behind the blanks. -/
def scanBehindBlanks (mode : Mode) (c : Cursor) : Scanned ValuedToken :=
  if c.exhausted then (.ok (.startingAt c.position .endOfInput none), c)
  else
    match c.glance 0 with
    | none => c.consume.andThen fun _ next => (.ok (.startingAt c.position .endOfInput none), next)
    | some ch =>
      if ch = '/' ∧ (c.glance 1 = some '/' ∨ c.glance 1 = some '*') then
        (c.skipComment c.position).andThen fun _ next => next.scanToken mode
      else c.scanLexeme mode c.position ch

theorem scanToken_eq (mode : Mode) (c : Cursor) :
    c.scanToken mode = (c.readWhile isBlank).andThen fun _ next => next.scanBehindBlanks mode := by
  rw [scanToken]
  split
  next stop next hread => rw [hread]; rfl
  next text next hread =>
    rw [hread]
    show _ = next.scanBehindBlanks mode
    unfold scanBehindBlanks
    refine if_congr Iff.rfl rfl ?_
    cases next.glance 0 with
    | none => rfl
    | some ch =>
        refine if_congr Iff.rfl ?_ rfl
        split
        next hcomment =>
          rw [hcomment]
          rfl
        next hcomment =>
          rw [hcomment]
          rfl

/-! ### In front of a gap -/

theorem scanToken_between (mode : Mode) (before t : Text) :
    (between before t).scanToken mode =
      (between (before ++ t.takeWhile isBlank) (t.dropWhile isBlank)).scanBehindBlanks mode := by
  rw [scanToken_eq, readWhile_takeWhile]
  rfl

theorem scanToken_blank {c : Char} (hc : isBlank c = true) (before t : Text) :
    (between before (c :: t)).scanToken mode = (between (before ++ [c]) t).scanToken mode := by
  rw [scanToken_between, scanToken_between, List.takeWhile_cons_of_pos hc,
    List.dropWhile_cons_of_pos hc, List.append_assoc]
  rfl

/-- A comment is skipped, whatever the scan behind it comes to. -/
theorem scanToken_comment {c : Char} (hc : c = '/' ∨ c = '*') (before t : Text) :
    (between before ('/' :: c :: t)).scanToken mode =
      ((between before ('/' :: c :: t)).skipComment (Position.behind before)).andThen
        fun _ next => next.scanToken mode := by
  have hblank : isBlank '/' = false := by decide
  have hsecond : (between before ('/' :: c :: t)).glance 1 = some c := glance_between before _ 1
  rw [scanToken_between, List.takeWhile_cons_of_neg (by simp [hblank]),
    List.dropWhile_cons_of_neg (by simp [hblank]), List.append_nil, scanBehindBlanks,
    exhausted_between, if_neg Bool.false_ne_true, glance_between_zero, hsecond]
  simp only [List.head?_cons, Option.some.injEq, hc, true_and, if_true, position_between]

theorem skipComment_between (start : Position) (before t : Text) (c : Char) :
    (between before ('/' :: c :: t)).skipComment start =
      if c = '/' then
        ((between (before ++ ['/', c]) t).readWhile (· ≠ '\n')).andThen fun _ next => (.ok (), next)
      else (between (before ++ ['/', c]) t).readBlock start := by
  rw [skipComment, consume_between]
  show ((between (before ++ ['/']) (c :: t)).consume).andThen _ = _
  rw [consume_between, List.append_assoc]
  simp only [Scanned.andThen, Option.some.injEq, List.cons_append, List.nil_append]

/-- The pieces of a gap make no difference to a scan. -/
theorem scanToken_piece {piece after : Text} (h : Gap.Piece piece after) (before : Text) :
    (between before (piece ++ after)).scanToken mode =
      (between (before ++ piece) after).scanToken mode := by
  cases h with
  | @blank c _ hc => exact scanToken_blank hc before after
  | @blockComment body _ hbody =>
      obtain ⟨closed, hclosed, hread⟩ :=
        readBlock_of_close (Position.behind before) (Gap.afterClose?_append hbody after)
      have hsame : closed = body ++ ['*', '/'] := by
        have happend : (body ++ ['*', '/']) ++ after = closed ++ after := by
          rw [List.append_assoc]
          exact hclosed
        exact (List.append_cancel_right happend).symm
      show (between before ('/' :: '*' :: ((body ++ ['*', '/']) ++ after))).scanToken mode = _
      rw [scanToken_comment (.inr rfl), skipComment_between, if_neg (by decide), List.append_assoc]
      show ((between (before ++ ['/', '*']) (body ++ '*' :: '/' :: after)).readBlock _).andThen _ =
        _
      rw [hread, hsame, List.append_assoc]
      rfl
  | @lineComment body _ hbody =>
      show (between before ('/' :: '/' :: (body ++ after))).scanToken mode = _
      rw [scanToken_comment (.inl rfl), skipComment_between, if_pos rfl,
        readWhile_between _ hbody, List.append_assoc]
      rfl

theorem scanToken_gap {gap after : Text} (h : Gap.IsGap gap after) (before : Text) :
    (between before (gap ++ after)).scanToken mode =
      (between (before ++ gap) after).scanToken mode := by
  induction h generalizing before with
  | nil => rw [List.append_nil, List.nil_append]
  | @cons piece gap after hpiece _ ih =>
      rw [List.append_assoc, scanToken_piece hpiece, ih, List.append_assoc]

/-! ### Behind the gap -/

/-- **A scan goes by the head of the unread text.** Its loops come to what the text in front of
them says, and no read of theirs is refused. -/
theorem scanToken_head (h : Gap.afterPiece? t = none) (before : Text) :
    (between before t).scanToken mode = scanHead mode before t := by
  cases t with
  | nil =>
      rw [scanToken_between]
      show (between (before ++ []) []).scanBehindBlanks mode = _
      rw [List.append_nil, scanBehindBlanks, exhausted_between, if_neg Bool.false_ne_true,
        glance_between_zero]
      show (between before []).consume.andThen _ = _
      rw [consume_between_nil]
      simp only [scanHead, Head.ofText, List.append_nil]
      rfl
  | cons c t =>
      obtain ⟨hblank, hline⟩ := Gap.of_afterPiece?_eq_none h
      by_cases hcomment : c = '/' ∧ t.head? = some '*'
      · obtain ⟨rfl, hstar⟩ := hcomment
        obtain ⟨body, rfl⟩ := List.head?_eq_some_iff.mp hstar
        rw [scanToken_comment (.inr rfl), skipComment_between, if_neg (by decide),
          readBlock_of_open _ h, List.append_assoc]
        rfl
      · rw [scanToken_between, List.takeWhile_cons_of_neg (by simp [hblank]),
          List.dropWhile_cons_of_neg (by simp [hblank]), List.append_nil, scanBehindBlanks,
          exhausted_between, if_neg Bool.false_ne_true, glance_between_zero, glance_between]
        simp only [List.head?_cons, List.getElem?_cons_succ]
        rw [if_neg, position_between, scanLexeme_between before hcomment]
        rw [List.head?_eq_getElem?] at hcomment
        rintro ⟨rfl, hslash | hstar⟩
        · obtain ⟨rest, rfl⟩ := List.head?_eq_some_iff.mp (List.head?_eq_getElem?.trans hslash)
          exact hline (List.prefix_append ['/', '/'] rest)
        · exact hcomment ⟨rfl, hstar⟩

/-- Once the end has been read there is nothing but the end. -/
theorem scanToken_spent (mode : Mode) (source : Text) :
    (spent source).scanToken mode =
      (.ok (.startingAt (Position.behind source) .endOfInput none), spent source) := by
  rw [scanToken_eq, readWhile_spent]
  rfl

end Cursor

end ScriptLex
