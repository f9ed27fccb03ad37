import DiskAnn.Labels

/-
  DiskANN text input: `std::getline` and the loop `while (std::getline(is, str, delim))` that
  every filter-table reader of `load_from_separate_paths` runs (`pq_flash_index.cpp`, lines
  694-699, 1117-1123 and 1176-1182), and the decimal fields `std::stoul` reads there.

  Model. A stream is the text left with its `eofbit` and `failbit`; a file that does not open
  is a stream with `failbit` set. `getline` follows the standard: on a stream that is not
  good the sentry fails, `failbit` is set and the string is left as it was; otherwise the
  string is erased and receives the characters up to the delimiter, which is extracted but not
  stored, and the end of the input sets `eofbit`, and `failbit` as well when nothing was
  extracted. The loop runs while `failbit` is clear. `decimal n` is the text a writer of the
  files prints for `n`: no writer is among the sources, and it only serves the round trips.

  Proved: `readLines_joinLines`: the loop over any text sees each delimited line, then the
  unterminated rest unless it is empty (a last line that `parse_label_file`'s own loop
  drops); one call at a time, `getline_delim`, `getline_last` and `getline_eof`. The field
  loop sees the fields of a delimited line (`readLines_sepBy`). `std::stoul` reads back every
  value below `2^64` written in decimal (`stoul_decimal`).
-/

namespace DiskAnn

/-- An input stream: the characters left, `eofbit` and `failbit`. -/
structure Istream where
  rest : List Char
  eof : Bool
  fail : Bool
deriving DecidableEq, Repr

/-- A stream over a file's text; `none` is a file that did not open, whose stream has
    `failbit` set. -/
def Istream.ofFile : Option (List Char) → Istream
  | some s => ⟨s, false, false⟩
  | none => ⟨[], false, true⟩

/-- `std::getline(is, str, delim)`. On a stream that is not good the sentry fails: `failbit`
    is set and `str` is left as it was. Otherwise `str` is erased and receives the characters
    up to the delimiter, which is extracted but not stored; the end of the input sets
    `eofbit`, and `failbit` too when nothing was extracted. -/
def getline (is : Istream) (str : List Char) (delim : Char) : Istream × List Char :=
  if is.eof || is.fail then ({ is with fail := true }, str)
  else
    let tok := is.rest.takeWhile (· != delim)
    match is.rest.dropWhile (· != delim) with
    | [] => (⟨[], true, tok.isEmpty⟩, tok)
    | _ :: rest => (⟨rest, false, false⟩, tok)

/-- `while (std::getline(is, str, delim))`: the strings the loop body sees, in order. A failed
    call ends the loop, so the string's old value is never read. -/
def getlines (delim : Char) : Nat → Istream → List (List Char)
  | 0, _ => []
  | fuel + 1, is =>
    let r := getline is [] delim
    if r.1.fail then [] else r.2 :: getlines delim fuel r.1

/-- The loop to its end: each call that succeeds extracts a character or sets `eofbit`, so
    `|rest| + 1` calls suffice. -/
def readLines (delim : Char) (is : Istream) : List (List Char) :=
  getlines delim (is.rest.length + 1) is

/-- The text of `lines`, each ended by `delim`. -/
def joinLines (delim : Char) (lines : List (List Char)) : List Char :=
  (lines.map (· ++ [delim])).flatten

/-! ## The line loop -/

section Getline

variable {delim : Char}

theorem takeWhile_ne_append {line : List Char} (h : delim ∉ line) (rest : List Char) :
    (line ++ rest).takeWhile (· != delim) = line ++ rest.takeWhile (· != delim) := by
  induction line with
  | nil => rfl
  | cons c line ih =>
    have hc : c ≠ delim := fun e => h (e ▸ List.mem_cons_self _ _)
    rw [List.cons_append, List.takeWhile_cons_of_pos (by simpa using hc),
      ih fun hm => h (List.mem_cons_of_mem _ hm), List.cons_append]

theorem dropWhile_ne_append {line : List Char} (h : delim ∉ line) (rest : List Char) :
    (line ++ rest).dropWhile (· != delim) = rest.dropWhile (· != delim) := by
  induction line with
  | nil => rfl
  | cons c line ih =>
    have hc : c ≠ delim := fun e => h (e ▸ List.mem_cons_self _ _)
    rw [List.cons_append, List.dropWhile_cons_of_pos (by simpa using hc),
      ih fun hm => h (List.mem_cons_of_mem _ hm)]

/-- A good stream reads one line up to its delimiter and stays good. -/
theorem getline_delim {line : List Char} (h : delim ∉ line) (rest str : List Char) :
    getline ⟨line ++ delim :: rest, false, false⟩ str delim = (⟨rest, false, false⟩, line) := by
  have ht := takeWhile_ne_append h (delim :: rest)
  have hd := dropWhile_ne_append h (delim :: rest)
  simp only [List.takeWhile_cons, List.dropWhile_cons, bne_self_eq_false, Bool.false_eq_true,
    if_false, List.append_nil] at ht hd
  simp only [getline, Bool.or_false, Bool.false_eq_true, if_false, ht, hd]

/-- A good stream reads a last line without a delimiter and sets `eofbit`; `failbit` only
    when the line is empty. -/
theorem getline_last {line : List Char} (h : delim ∉ line) (str : List Char) :
    getline ⟨line, false, false⟩ str delim = (⟨[], true, line.isEmpty⟩, line) := by
  have ht := takeWhile_ne_append h []
  have hd := dropWhile_ne_append h []
  simp only [List.append_nil, List.takeWhile_nil, List.dropWhile_nil] at ht hd
  simp only [getline, Bool.or_false, Bool.false_eq_true, if_false, ht, hd]

theorem getline_eof (rest str : List Char) (fail : Bool) :
    getline ⟨rest, true, fail⟩ str delim = (⟨rest, true, true⟩, str) := by
  simp [getline]

/-- The loop over `lines`, each ended by the delimiter, then `last` without one: the lines,
    then `last` unless it is empty. -/
theorem getlines_joinLines {lines : List (List Char)} {last : List Char}
    (hl : ∀ l ∈ lines, delim ∉ l) (hlast : delim ∉ last) :
    ∀ fuel, (joinLines delim lines ++ last).length < fuel →
      getlines delim fuel ⟨joinLines delim lines ++ last, false, false⟩ =
        lines ++ if last = [] then [] else [last] := by
  induction lines with
  | nil =>
    intro fuel hf
    obtain ⟨fuel, rfl⟩ : ∃ f, fuel = f + 1 := ⟨fuel - 1, by omega⟩
    simp only [joinLines, List.map_nil, List.flatten_nil, List.nil_append] at hf ⊢
    rw [getlines, getline_last hlast]
    cases last with
    | nil => rfl
    | cons c last =>
      obtain ⟨fuel, rfl⟩ : ∃ f, fuel = f + 1 := ⟨fuel - 1, by simp at hf; omega⟩
      simp [getlines, getline_eof]
  | cons l lines ih =>
    intro fuel hf
    obtain ⟨fuel, rfl⟩ : ∃ f, fuel = f + 1 := ⟨fuel - 1, by omega⟩
    have hj : joinLines delim (l :: lines) ++ last = l ++ delim :: (joinLines delim lines ++ last) := by
      simp [joinLines]
    rw [hj] at hf ⊢
    rw [getlines, getline_delim (hl l (List.mem_cons_self _ _)), if_neg Bool.false_ne_true,
      ih (fun l' hl' => hl l' (List.mem_cons_of_mem _ hl')) fuel
        (by simp only [List.length_append, List.length_cons] at hf ⊢; omega),
      List.cons_append]

/-- (PROVED) `while (std::getline(...))` over a text sees its delimited pieces: every line
    ended by the delimiter, then the unterminated rest unless it is empty. -/
theorem readLines_joinLines {lines : List (List Char)} {last : List Char}
    (hl : ∀ l ∈ lines, delim ∉ l) (hlast : delim ∉ last) :
    readLines delim (Istream.ofFile (some (joinLines delim lines ++ last))) =
      lines ++ if last = [] then [] else [last] :=
  getlines_joinLines hl hlast _ (Nat.lt_succ_self _)

/-- A line, a blank line, then an unterminated `c`. -/
theorem blankThenUnterminated_lines :
    (∀ l ∈ [['a', 'b'], []], '\n' ∉ l) ∧ '\n' ∉ ['c'] ∧
      readLines '\n' (Istream.ofFile (some (joinLines '\n' [['a', 'b'], []] ++ ['c']))) =
        [['a', 'b'], [], ['c']] :=
  ⟨by decide, by decide, readLines_joinLines (by decide) (by decide)⟩

end Getline

/-! ## Decimal fields -/

/-- The decimal text of `n`, most significant digit first. -/
def decimal (n : Nat) : List Char :=
  if n < 10 then [Char.ofNat (48 + n)] else decimal (n / 10) ++ [Char.ofNat (48 + n % 10)]
decreasing_by omega

theorem digit_spec : ∀ d < 10, (Char.ofNat (48 + d)).toNat = 48 + d ∧
    (Char.ofNat (48 + d)).isDigit = true ∧ isCSpace (Char.ofNat (48 + d)) = false := by
  decide

theorem digitsValue_append_digit (l : List Char) {d : Nat} (hd : d < 10) :
    digitsValue (l ++ [Char.ofNat (48 + d)]) = digitsValue l * 10 + d := by
  rw [digitsValue, List.foldl_append, List.foldl_cons, List.foldl_nil, (digit_spec d hd).1]
  show digitsValue l * 10 + (48 + d - 48) = _
  omega

theorem decimal_spec (n : Nat) :
    decimal n ≠ [] ∧ (∀ c ∈ decimal n, c.isDigit = true) ∧ digitsValue (decimal n) = n := by
  induction n using Nat.strong_induction_on with
  | _ n ih =>
    rw [decimal]
    split
    · refine ⟨List.cons_ne_nil _ _, fun c hc => ?_, ?_⟩
      · rw [List.mem_singleton.1 hc]; exact (digit_spec n ‹_›).2.1
      · have h := digitsValue_append_digit [] (d := n) ‹_›
        rwa [List.nil_append, show digitsValue [] = 0 from rfl, Nat.zero_mul, Nat.zero_add] at h
    · obtain ⟨-, hd, hv⟩ := ih (n / 10) (by omega)
      refine ⟨by simp, fun c hc => ?_, ?_⟩
      · rcases List.mem_append.1 hc with hc | hc
        · exact hd c hc
        · rw [List.mem_singleton.1 hc]; exact (digit_spec _ (Nat.mod_lt _ (by omega))).2.1
      · rw [digitsValue_append_digit _ (Nat.mod_lt _ (by omega)), hv]
        omega

theorem isCSpace_of_isDigit {c : Char} (h : c.isDigit = true) : isCSpace c = false := by
  cases hs : isCSpace c
  · rfl
  · simp only [isCSpace, Bool.or_eq_true, decide_eq_true_eq] at hs
    rcases hs with ((((h1 | h1) | h1) | h1) | h1) | h1 <;> subst h1 <;> revert h <;> decide

/-- `std::stoul` accepts a non-empty run of digits below `2^64` as its value. -/
theorem stoul_of_digits {s : List Char} (hne : s ≠ []) (hd : ∀ c ∈ s, c.isDigit = true)
    (hv : digitsValue s < 2 ^ 64) : stoul s = .ok (digitsValue s) := by
  obtain ⟨c, cs, rfl⟩ := List.exists_cons_of_ne_nil hne
  have hc := hd c (List.mem_cons_self _ _)
  have h1 : c ≠ '-' := by rintro rfl; revert hc; decide
  have h2 : c ≠ '+' := by rintro rfl; revert hc; decide
  have htake : (c :: cs).takeWhile Char.isDigit = c :: cs := List.takeWhile_eq_self_iff.2 hd
  unfold stoul
  simp only [List.dropWhile_cons, isCSpace_of_isDigit hc, Bool.false_eq_true, if_false]
  delta stoul.match_1
  simp only [dif_neg h1, dif_neg h2, htake, List.cons_ne_nil, if_false, not_le.2 hv]
  rfl


/-- `std::stoul` reads back the decimal text of every value below `2^64`. -/
theorem stoul_decimal {n : Nat} (h : n < 2 ^ 64) : stoul (decimal n) = .ok n := by
  obtain ⟨hne, hd, hv⟩ := decimal_spec n
  rw [stoul_of_digits hne hd (by rwa [hv]), hv]

theorem not_mem_decimal {c : Char} (hc : c.isDigit = false) (n : Nat) : c ∉ decimal n :=
  fun h => by rw [(decimal_spec n).2.1 c h] at hc; cases hc

/-! ## Delimited fields -/

theorem getline_decimal (n : Nat) (str : List Char) (delim : Char) (h : delim.isDigit = false) :
    getline ⟨decimal n, false, false⟩ str delim = (⟨[], true, false⟩, decimal n) := by
  rw [getline_last (not_mem_decimal h n)]
  cases hd : decimal n with
  | nil => exact absurd hd (decimal_spec n).1
  | cons => rfl

/-- A `foldlM` in `Except` over encoded entries, each of whose steps succeeds, is the pure fold
    over the entries. -/
theorem foldlM_map_eq_ok {α γ β ε : Type} {f : β → γ → Except ε β} {enc : α → γ}
    {G : β → α → β} : ∀ {l : List α}, (∀ a ∈ l, ∀ b, f b (enc a) = .ok (G b a)) →
      ∀ b, (l.map enc).foldlM f b = .ok (l.foldl G b)
  | [], _, _ => rfl
  | a :: l, h, b => by
    rw [List.map_cons, List.foldlM_cons, h a (List.mem_cons_self _ _), List.foldl_cons]
    exact foldlM_map_eq_ok (fun a' ha' => h a' (List.mem_cons_of_mem _ ha')) _

/-- The lines of a text written by `joinLines` with no delimiter inside a line. -/
theorem readLines_of_joinLines {delim : Char} {lines : List (List Char)}
    (hl : ∀ l ∈ lines, delim ∉ l) :
    readLines delim (Istream.ofFile (some (joinLines delim lines))) = lines := by
  have h := @getlines_joinLines delim lines [] hl (List.not_mem_nil _) _ (Nat.lt_succ_self _)
  rwa [List.append_nil, if_pos rfl, List.append_nil] at h

/-- `first`, then each of `rest` after a delimiter: a line of comma-separated fields. -/
def sepBy (delim : Char) (first : List Char) (rest : List (List Char)) : List Char :=
  first ++ (rest.map (delim :: ·)).flatten

theorem sepBy_eq_joinLines (delim : Char) : ∀ (first : List Char) (rest : List (List Char)),
    sepBy delim first rest =
      joinLines delim (first :: rest).dropLast ++ (first :: rest).getLast (List.cons_ne_nil _ _)
  | first, [] => by simp [sepBy, joinLines]
  | first, f :: rest => by
    have ih := sepBy_eq_joinLines delim f rest
    simp only [sepBy, List.map_cons, List.flatten_cons] at ih ⊢
    rw [List.dropLast_cons₂, List.getLast_cons (List.cons_ne_nil _ _), joinLines, List.map_cons,
      List.flatten_cons, ← joinLines, List.cons_append, ih]
    simp

/-- The field loop over a delimited line sees its fields, when none holds the delimiter and
    the last is not empty. -/
theorem readLines_sepBy {delim : Char} {first : List Char} {rest : List (List Char)}
    (h : ∀ f ∈ first :: rest, delim ∉ f) (hne : (first :: rest).getLast (List.cons_ne_nil _ _) ≠ []) :
    readLines delim (Istream.ofFile (some (sepBy delim first rest))) = first :: rest := by
  have hg := getlines_joinLines (fun f hf => h f (List.dropLast_subset _ hf))
    (h _ (List.getLast_mem (List.cons_ne_nil first rest))) _ (Nat.lt_succ_self _)
  rw [if_neg hne, List.dropLast_append_getLast] at hg
  rw [sepBy_eq_joinLines]
  exact hg

end DiskAnn
