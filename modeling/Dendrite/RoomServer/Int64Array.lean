import Dendrite.SQL
import Mathlib.Data.Nat.Digits

/-! What the sqlite3 room server tables hand to `lib/pq`'s `Int64Array` and to SQLite: the text
`Int64Array.Value` writes for a slice of `int64`s, `Int64Array.Scan` reading a text back through
`parseArray` and `strconv.ParseInt`, and SQLite's `=` between an INTEGER column and a bound value.
Texts are read by characters; offsets count UTF-8 bytes, as Go's do. -/

namespace Dendrite.RoomServer

def Int64Range (v : Int) : Prop := -2 ^ 63 ≤ v ∧ v < 2 ^ 63

instance (v : Int) : Decidable (Int64Range v) := inferInstanceAs (Decidable (_ ∧ _))

inductive NumErr
  | invalid
  | outOfRange
  deriving DecidableEq, Repr

def NumErr.text : NumErr → String
  | .invalid => "invalid syntax"
  | .outOfRange => "value out of range"

def digitValue (c : Char) : Option Nat :=
  if '0' ≤ c ∧ c ≤ '9' then some (c.toNat - '0'.toNat) else none

def maxUint64 : Nat := 2 ^ 64 - 1

/-- The loop of `strconv.ParseUint(s, 10, 64)`: a byte that is no decimal digit is `ErrSyntax`, and
a digit that takes `n` past `maxUint64` is `ErrRange` at once, before the bytes after it. -/
def readDigits (n : Nat) : List Char → Except NumErr Nat
  | [] => .ok n
  | c :: cs =>
    match digitValue c with
    | none => .error .invalid
    | some d =>
      if maxUint64 / 10 + 1 ≤ n ∨ maxUint64 < 10 * n + d then .error .outOfRange
      else readDigits (10 * n + d) cs

def parseUint (s : List Char) : Except NumErr Nat :=
  if s = [] then .error .invalid else readDigits 0 s

def nonNegInt64 (un : Nat) : Except NumErr Int :=
  if un < 2 ^ 63 then .ok un else .error .outOfRange

def parseInt : List Char → Except NumErr Int
  | [] => .error .invalid
  | c :: ds =>
    if c = '-' then
      (parseUint ds).bind fun un => if un ≤ 2 ^ 63 then .ok (-un) else .error .outOfRange
    else if c = '+' then (parseUint ds).bind nonNegInt64
    else (parseUint (c :: ds)).bind nonNegInt64

/-- `appendEscapedRune` of `strconv` for the rune `r` inside the quote `q`; `unicode.IsPrint` is
taken to hold of every non-ASCII rune. -/
def escapeRune (q r : Char) : String :=
  if r = q ∨ r = '\\' then "\\" ++ r.toString
  else if 0x80 ≤ r.toNat ∨ (0x20 ≤ r.toNat ∧ r.toNat < 0x7f) then r.toString
  else match r.toNat with
    | 7 => "\\a"
    | 8 => "\\b"
    | 9 => "\\t"
    | 10 => "\\n"
    | 11 => "\\v"
    | 12 => "\\f"
    | 13 => "\\r"
    | n => "\\x" ++ (Nat.digitChar (n / 16)).toString ++ (Nat.digitChar (n % 16)).toString

def quote (s : List Char) : String := "\"" ++ String.join (s.map (escapeRune '"')) ++ "\""

def numErrorText (num : List Char) (e : NumErr) : String :=
  "strconv.ParseInt: parsing " ++ quote num ++ ": " ++ e.text

theorem digitValue_digitChar : ∀ m < 10, digitValue (Nat.digitChar m) = some m := by
  decide

theorem readDigits_toDigitsCore :
    ∀ fuel n ds, n < fuel → readDigits 0 (Nat.toDigitsCore 10 fuel n ds) =
      if n ≤ maxUint64 then readDigits n ds else .error .outOfRange
  | 0, _, _, h => absurd h (Nat.not_lt_zero _)
  | fuel + 1, n, ds, h => by
    have hd := digitValue_digitChar (n % 10) (Nat.mod_lt _ (by omega))
    have hmax : maxUint64 = 18446744073709551615 := rfl
    simp only [Nat.toDigitsCore]
    split_ifs with h0 hn hn
    · simp only [readDigits, hd, Nat.mul_zero, Nat.zero_add]
      rw [if_neg (by omega), Nat.mod_eq_of_lt (by omega)]
    · omega
    · rw [readDigits_toDigitsCore fuel _ _ (by omega), if_pos (by omega)]
      simp only [readDigits, hd]
      rw [if_neg (by omega), Nat.div_add_mod]
    · rw [readDigits_toDigitsCore fuel _ _ (by omega)]
      split_ifs
      · simp only [readDigits, hd]
        rw [if_pos (by omega)]
      · rfl

theorem toDigitsCore_ne_nil : ∀ fuel n ds, ds ≠ [] → Nat.toDigitsCore 10 fuel n ds ≠ []
  | 0, _, _, h => h
  | fuel + 1, n, ds, _ => by
    simp only [Nat.toDigitsCore]
    split_ifs
    · exact List.cons_ne_nil _ _
    · exact toDigitsCore_ne_nil fuel _ _ (List.cons_ne_nil _ _)

theorem toDigits_ne_nil (n : Nat) : Nat.toDigits 10 n ≠ [] := by
  simp only [Nat.toDigits, Nat.toDigitsCore]
  split_ifs
  · exact List.cons_ne_nil _ _
  · exact toDigitsCore_ne_nil _ _ _ (List.cons_ne_nil _ _)

theorem toDigitsCore_digit :
    ∀ fuel n ds, (∀ c ∈ ds, (digitValue c).isSome) →
      ∀ c ∈ Nat.toDigitsCore 10 fuel n ds, (digitValue c).isSome
  | 0, _, _, hds => hds
  | fuel + 1, n, ds, hds => by
    have hd : (digitValue (Nat.digitChar (n % 10))).isSome := by
      rw [digitValue_digitChar _ (Nat.mod_lt _ (by omega))]; rfl
    have hcons : ∀ c ∈ Nat.digitChar (n % 10) :: ds, (digitValue c).isSome := by
      simpa only [List.mem_cons, forall_eq_or_imp] using ⟨hd, hds⟩
    simp only [Nat.toDigitsCore]
    split_ifs
    · exact hcons
    · exact toDigitsCore_digit fuel _ _ hcons

theorem parseUint_toDigits (n : Nat) :
    parseUint (Nat.toDigits 10 n) = if n ≤ maxUint64 then .ok n else .error .outOfRange := by
  rw [parseUint, if_neg (toDigits_ne_nil n), Nat.toDigits,
    readDigits_toDigitsCore _ _ _ (Nat.lt_succ_self n)]
  rfl

theorem toString_data (v : Int) :
    (toString v).data =
      if 0 ≤ v then Nat.toDigits 10 v.natAbs else '-' :: Nat.toDigits 10 v.natAbs := by
  cases v with
  | ofNat m => rfl
  | negSucc m => rfl

theorem toString_digit (v : Int) : ∀ c ∈ (toString v).data, c = '-' ∨ (digitValue c).isSome := by
  have h := toDigitsCore_digit (v.natAbs + 1) v.natAbs [] (by simp)
  rw [toString_data]
  split_ifs
  · exact fun c hc => .inr (h c hc)
  · simpa only [List.mem_cons, forall_eq_or_imp, true_or, true_and] using fun c hc => .inr (h c hc)

theorem toString_ne_nil (v : Int) : (toString v).data ≠ [] := by
  rw [toString_data]
  split_ifs
  · exact toDigits_ne_nil _
  · exact List.cons_ne_nil _ _

theorem parseInt_toDigits (n : Nat) :
    parseInt (Nat.toDigits 10 n) = (parseUint (Nat.toDigits 10 n)).bind nonNegInt64 := by
  have hdig := toDigitsCore_digit (n + 1) n [] (by simp)
  cases hds : Nat.toDigits 10 n with
  | nil => exact absurd hds (toDigits_ne_nil _)
  | cons c cs =>
    have hc : (digitValue c).isSome :=
      hdig c (by rw [Nat.toDigits] at hds; rw [hds]; exact List.mem_cons_self _ _)
    have hsign : c ≠ '-' ∧ c ≠ '+' :=
      ⟨by rintro rfl; simp [digitValue] at hc, by rintro rfl; simp [digitValue] at hc⟩
    simp only [parseInt, if_neg hsign.1, if_neg hsign.2]

theorem parseInt_toString_eq (v : Int) :
    parseInt (toString v).data = if Int64Range v then .ok v else .error .outOfRange := by
  have hmax : maxUint64 = 18446744073709551615 := rfl
  rw [toString_data]
  by_cases h0 : 0 ≤ v
  · rw [if_pos h0, parseInt_toDigits, parseUint_toDigits]
    by_cases hv : v.natAbs < 2 ^ 63
    · have hr : Int64Range v := ⟨by omega, by omega⟩
      rw [if_pos hr, if_pos (by omega)]
      show nonNegInt64 v.natAbs = _
      rw [nonNegInt64, if_pos hv, Int.natAbs_of_nonneg h0]
    · have hr : ¬ Int64Range v := fun ⟨_, h⟩ => hv (by omega)
      rw [if_neg hr]
      split_ifs
      · show nonNegInt64 v.natAbs = _
        rw [nonNegInt64, if_neg hv]
      · rfl
  · simp only [if_neg h0, parseInt, if_true, parseUint_toDigits]
    by_cases hv : v.natAbs ≤ 2 ^ 63
    · have hr : Int64Range v := ⟨by omega, by omega⟩
      rw [if_pos hr, if_pos (by omega)]
      show (if v.natAbs ≤ 2 ^ 63 then _ else _ : Except NumErr Int) = _
      rw [if_pos hv]
      congr 1
      omega
    · have hr : ¬ Int64Range v := fun ⟨h, _⟩ => hv (by omega)
      rw [if_neg hr]
      split_ifs
      · show (if v.natAbs ≤ 2 ^ 63 then _ else _ : Except NumErr Int) = _
        rw [if_neg hv]
      · rfl

theorem parseInt_toString {v : Int} (hv : Int64Range v) : parseInt (toString v).data = .ok v := by
  rw [parseInt_toString_eq, if_pos hv]

theorem nonNegInt64_range {n : Nat} {v : Int} (h : nonNegInt64 n = .ok v) : Int64Range v := by
  unfold nonNegInt64 at h
  split_ifs at h with hn
  cases h
  exact ⟨by omega, by omega⟩

theorem parseInt_range {cs : List Char} {v : Int} (h : parseInt cs = .ok v) : Int64Range v := by
  unfold parseInt at h
  split at h
  · cases h
  · split_ifs at h <;> obtain ⟨n, -, h⟩ := bind_eq_ok h
    · split_ifs at h with hn
      cases h
      exact ⟨by omega, by omega⟩
    · exact nonNegInt64_range h
    · exact nonNegInt64_range h

/-- `pq.Int64Array.Value` of a non-nil slice: `{`, the elements as `strconv.AppendInt` writes them,
separated by `,`, then `}`. -/
def int64ArrayText : List Int → String
  | [] => "\x7b\x7d"
  | v :: vs => ⟨'{' :: (toString v).data ++ vs.flatMap (fun w => ',' :: (toString w).data) ++ ['}']⟩

/-- `%q` of a byte: `strconv.QuoteRune` of the rune with its value. -/
def quoteByte (b : Nat) : String := "'" ++ escapeRune '\'' (Char.ofNat b) ++ "'"

def leadByte (c : Char) : Nat := ((String.utf8EncodeChar c).headD 0).toNat

def arrayError (text : String) : DBError := .message ("pq: unable to parse array; " ++ text)

def unexpected (c : Char) (i : Nat) : DBError :=
  arrayError ("unexpected " ++ quoteByte (leadByte c) ++ " at offset " ++ toString i)

inductive ArrayMode
  | opening
  | element
  | quoted (elem : List Char) (escape : Bool)
  | unquoted (elem : List Char)
  | afterElement
  | closing
  deriving DecidableEq, Repr

/-- The locals of `parseArray`: `depth`, the byte offset `i`, `dims` and `elems` (`none` for a
`NULL` element). -/
structure ArrayScan where
  mode : ArrayMode
  depth : Nat
  i : Nat
  dims : List Nat
  elems : List (Option (List Char))
  deriving DecidableEq, Repr

namespace ArrayScan

def afterElement (st : ArrayScan) (c : Char) : Except DBError ArrayScan :=
  if c = ',' ∧ 0 < st.depth then
    .ok { st with mode := .element, i := st.i + 1, dims := st.dims.modify (· + 1) (st.depth - 1) }
  else if c = '}' ∧ 0 < st.depth then
    .ok { st with
      mode := .afterElement
      depth := st.depth - 1
      i := st.i + 1
      dims := st.dims.modify (· + 1) (st.depth - 1) }
  else .error (unexpected c st.i)

def close (st : ArrayScan) (c : Char) : Except DBError ArrayScan :=
  if c = '}' ∧ 0 < st.depth then .ok { st with mode := .closing, depth := st.depth - 1, i := st.i + 1 }
  else .error (unexpected c st.i)

def element (st : ArrayScan) (c : Char) : Except DBError ArrayScan :=
  if c = '{' then
    if st.depth = st.dims.length then .error (unexpected c st.i)
    else .ok { st with depth := st.depth + 1, i := st.i + 1, dims := st.dims.set st.depth 0 }
  else if c = '"' then .ok { st with mode := .quoted [] false, i := st.i + 1 }
  else if c = ',' ∨ c = '}' then .error (unexpected c st.i)
  else .ok { st with mode := .unquoted [c], i := st.i + c.utf8Size }

/-- `parseArray` at the character `c`; a loop that ends at `c` without reading it hands `c` to
the next. -/
def step (st : ArrayScan) (c : Char) : Except DBError ArrayScan :=
  match st.mode with
  | .opening =>
    if c = '{' then .ok { st with depth := st.depth + 1, i := st.i + 1 }
    else if c = '}' then st.close c
    else { st with mode := .element, dims := List.replicate st.i 0 }.element c
  | .element => st.element c
  | .quoted elem true => .ok { st with mode := .quoted (elem ++ [c]) false, i := st.i + c.utf8Size }
  | .quoted elem false =>
    if c = '\\' then .ok { st with mode := .quoted elem true, i := st.i + 1 }
    else if c = '"' then
      .ok { st with mode := .afterElement, i := st.i + 1, elems := st.elems ++ [some elem] }
    else .ok { st with mode := .quoted (elem ++ [c]) false, i := st.i + c.utf8Size }
  | .unquoted elem =>
    if c = ',' ∨ c = '}' then
      { st with elems := st.elems ++ [if elem = "NULL".data then none else some elem] }.afterElement c
    else .ok { st with mode := .unquoted (elem ++ [c]), i := st.i + c.utf8Size }
  | .afterElement => st.afterElement c
  | .closing => st.close c

def run (st : ArrayScan) : List Char → Except DBError ArrayScan
  | [] => .ok st
  | c :: cs => (st.step c).bind (·.run cs)

def finish (st : ArrayScan) : Except DBError (List Nat × List (Option (List Char))) :=
  if 0 < st.depth then .error (arrayError ("expected '\x7d' at offset " ++ toString st.i))
  else if st.dims.any (fun d => st.elems.length % d ≠ 0) then
    .error (.message "pq: multidimensional arrays must have elements with matching dimensions")
  else .ok (st.dims, st.elems)

end ArrayScan

def parseArray (s : String) : Except DBError (List Nat × List (Option (List Char))) :=
  match s.data with
  | '{' :: rest => ((ArrayScan.mk .opening 1 1 [] []).run rest).bind ArrayScan.finish
  | _ => .error (arrayError "expected '\x7b' at offset 0")

def scanLinearArray (s : String) : Except DBError (List (Option (List Char))) :=
  (parseArray s).bind fun (dims, elems) =>
    if 1 < dims.length then
      .error (.message ("pq: cannot convert ARRAY" ++
        String.join (dims.map fun d => "[" ++ toString d ++ "]") ++ " to Int64Array"))
    else .ok elems

/-- The element loop of `Int64Array.scanBytes`: `strconv.ParseInt` of each element, `NULL` read as
the empty text. -/
def parseElements (i : Nat) : List (Option (List Char)) → Except DBError (List Int)
  | [] => .ok []
  | e :: es =>
    match parseInt (e.getD []) with
    | .error err => .error (.message ("pq: parsing array element index " ++ toString i ++ ": " ++
        numErrorText (e.getD []) err))
    | .ok v => (parseElements (i + 1) es).map (v :: ·)

def scanInt64Array (s : String) : Except DBError (List Int) :=
  (scanLinearArray s).bind (parseElements 0)

namespace ArrayScan

theorem run_append (st : ArrayScan) (xs ys : List Char) :
    st.run (xs ++ ys) = (st.run xs).bind (·.run ys) := by
  induction xs generalizing st with
  | nil => rfl
  | cons c cs ih =>
    simp only [List.cons_append, run]
    cases st.step c with
    | error e => rfl
    | ok st' => exact ih st'

theorem step_element {st : ArrayScan} (hm : st.mode = .element) (c : Char) :
    st.step c = st.element c := by
  obtain ⟨m, _, _, _, _⟩ := st
  subst hm
  rfl

theorem step_unquoted {st : ArrayScan} {elem : List Char} (hm : st.mode = .unquoted elem)
    (c : Char) :
    st.step c = if c = ',' ∨ c = '}' then
        { st with elems := st.elems ++ [if elem = "NULL".data then none else some elem] }.afterElement c
      else .ok { st with mode := .unquoted (elem ++ [c]), i := st.i + c.utf8Size } := by
  obtain ⟨m, _, _, _, _⟩ := st
  subst hm
  rfl

theorem run_unquoted {elem cs : List Char} (hcs : ∀ c ∈ cs, c ≠ ',' ∧ c ≠ '}') :
    ∀ st : ArrayScan, st.mode = .unquoted elem →
      ∃ i, st.run cs = .ok { st with mode := .unquoted (elem ++ cs), i := i } := by
  induction cs generalizing elem with
  | nil => exact fun st hm => ⟨st.i, by rw [List.append_nil, ← hm]; rfl⟩
  | cons c cs ih =>
    intro st hm
    have hc := hcs c (List.mem_cons_self _ _)
    obtain ⟨i, hi⟩ := @ih (elem ++ [c]) (fun x hx => hcs x (List.mem_cons_of_mem _ hx))
      { st with mode := .unquoted (elem ++ [c]), i := st.i + c.utf8Size } rfl
    refine ⟨i, ?_⟩
    rw [run, step_unquoted hm, if_neg (not_or.mpr hc)]
    rw [show elem ++ c :: cs = elem ++ [c] ++ cs by simp]
    exact hi

theorem afterElement_comma {st : ArrayScan} {k : Nat} (hd : st.depth = 1) (hk : st.dims = [k]) :
    st.afterElement ',' = .ok { st with mode := .element, i := st.i + 1, dims := [k + 1] } := by
  obtain ⟨_, _, _, _, _⟩ := st
  subst hd hk
  rfl

theorem afterElement_close {st : ArrayScan} {k : Nat} (hd : st.depth = 1) (hk : st.dims = [k]) :
    st.afterElement '}' =
      .ok { st with mode := .afterElement, depth := 0, i := st.i + 1, dims := [k + 1] } := by
  obtain ⟨_, _, _, _, _⟩ := st
  subst hd hk
  rfl

def NumberChar (c : Char) : Prop := c = '-' ∨ (digitValue c).isSome

theorem NumberChar.ne {c : Char} (h : NumberChar c) : c ≠ ',' ∧ c ≠ '}' ∧ c ≠ '{' ∧ c ≠ '"' := by
  rcases h with rfl | h
  · decide
  · refine ⟨?_, ?_, ?_, ?_⟩ <;> rintro rfl <;> simp [digitValue] at h

theorem run_number {ds : List Char} (hds : ∀ c ∈ ds, NumberChar c) (hne : ds ≠ [])
    (st : ArrayScan) (hm : st.mode = .element) (d : Char) (hd : d = ',' ∨ d = '}')
    (rest : List Char) :
    ∃ i, st.run (ds ++ d :: rest) =
      ({ st with i := i, elems := st.elems ++ [some ds] }.afterElement d).bind (·.run rest) := by
  obtain ⟨c, cs, rfl⟩ := List.exists_cons_of_ne_nil hne
  have hc := (hds c (List.mem_cons_self _ _)).ne
  obtain ⟨i, hi⟩ := @run_unquoted [c] cs
    (fun x hx => ((hds x (List.mem_cons_of_mem _ hx)).ne).imp_right And.left)
    { st with mode := .unquoted [c], i := st.i + c.utf8Size } rfl
  have hnull : c :: cs ≠ "NULL".data := fun h => by
    have := hds 'N' (h ▸ List.mem_cons_self _ _)
    rcases this with h | h <;> simp [digitValue] at h
  have h1 : st.step c = .ok { st with mode := .unquoted [c], i := st.i + c.utf8Size } := by
    rw [step_element hm, element, if_neg hc.2.2.1, if_neg hc.2.2.2,
      if_neg (not_or.mpr ⟨hc.1, hc.2.1⟩)]
  refine ⟨i, ?_⟩
  rw [List.cons_append, run, h1, ok_bind, run_append, hi, ok_bind, run, step_unquoted rfl,
    if_pos hd, List.singleton_append, if_neg hnull]
  rfl

theorem run_numbers (vs : List Int) : ∀ (v : Int) (st : ArrayScan) (k : Nat),
    st.mode = .element → st.depth = 1 → st.dims = [k] →
    ∃ i, st.run ((toString v).data ++ vs.flatMap (fun w => ',' :: (toString w).data) ++ ['}']) =
      .ok ⟨.afterElement, 0, i, [k + 1 + vs.length],
        st.elems ++ (v :: vs).map fun w => some (toString w).data⟩ := by
  induction vs with
  | nil =>
    intro v st k hm hd hk
    obtain ⟨i, hi⟩ := run_number (toString_digit v) (toString_ne_nil v) st hm '}' (.inr rfl) []
    refine ⟨i + 1, ?_⟩
    rw [List.flatMap_nil, List.append_nil, hi,
      @afterElement_close { st with i := i, elems := _ } k hd hk, ok_bind]
    rfl
  | cons w ws ih =>
    intro v st k hm hd hk
    obtain ⟨i, hi⟩ := run_number (toString_digit v) (toString_ne_nil v) st hm ',' (.inl rfl)
      ((toString w).data ++ ws.flatMap (fun w => ',' :: (toString w).data) ++ ['}'])
    obtain ⟨i', hi'⟩ := ih w
      { st with mode := .element, i := i + 1, dims := [k + 1], elems := st.elems ++ [some _] }
      (k + 1) rfl hd rfl
    refine ⟨i', ?_⟩
    rw [show (toString v).data ++ (w :: ws).flatMap (fun w => ',' :: (toString w).data) ++ ['}'] =
      (toString v).data ++ ',' :: ((toString w).data ++
        ws.flatMap (fun w => ',' :: (toString w).data) ++ ['}']) by simp, hi]
    rw [@afterElement_comma { st with i := i, elems := _ } k hd hk, ok_bind]
    refine hi'.trans ?_
    simp only [List.length_cons, List.map_cons, List.append_assoc, List.singleton_append,
      Except.ok.injEq, ArrayScan.mk.injEq, List.cons.injEq, true_and, and_true]
    omega

theorem step_opening_number {c : Char} (hc : NumberChar c) :
    (ArrayScan.mk .opening 1 1 [] []).step c = (ArrayScan.mk .element 1 1 [0] []).step c := by
  simp only [step, if_neg hc.ne.2.2.1, if_neg hc.ne.2.1]
  rfl

end ArrayScan

theorem scanLinearArray_int64ArrayText (a : List Int) :
    scanLinearArray (int64ArrayText a) = .ok (a.map fun v => some (toString v).data) := by
  cases a with
  | nil => rfl
  | cons v vs =>
    obtain ⟨c, cs, hcs⟩ := List.exists_cons_of_ne_nil (toString_ne_nil v)
    have hc : ArrayScan.NumberChar c := toString_digit v c (hcs ▸ List.mem_cons_self _ _)
    obtain ⟨i, hi⟩ := ArrayScan.run_numbers vs v ⟨.element, 1, 1, [0], []⟩ 0 rfl rfl rfl
    have hrun : ∀ rest, (ArrayScan.mk .opening 1 1 [] []).run ((toString v).data ++ rest) =
        (ArrayScan.mk .element 1 1 [0] []).run ((toString v).data ++ rest) := fun rest => by
      rw [hcs, List.cons_append, ArrayScan.run, ArrayScan.run, ArrayScan.step_opening_number hc]
    have hp : parseArray (int64ArrayText (v :: vs)) = ((ArrayScan.mk .opening 1 1 [] []).run
        ((toString v).data ++ (vs.flatMap (fun w => ',' :: (toString w).data) ++ ['}']))).bind
        ArrayScan.finish := by
      rw [← List.append_assoc]
      rfl
    rw [scanLinearArray, hp, hrun, ← List.append_assoc, hi, ok_bind]
    simp [ArrayScan.finish, ok_bind, Nat.add_comm 1 vs.length]

theorem parseElements_toString (i : Nat) {a : List Int} (ha : ∀ v ∈ a, Int64Range v) :
    parseElements i (a.map fun v => some (toString v).data) = .ok a := by
  induction a generalizing i with
  | nil => rfl
  | cons v a ih =>
    simp only [List.map_cons, parseElements, Option.getD_some,
      parseInt_toString (ha v (List.mem_cons_self _ _)),
      ih (i + 1) fun w hw => ha w (List.mem_cons_of_mem _ hw)]
    rfl

theorem parseElements_toString_error (i : Nat) {a : List Int} (ha : ∃ v ∈ a, ¬ Int64Range v) :
    ∃ e, parseElements i (a.map fun v => some (toString v).data) = .error e := by
  induction a generalizing i with
  | nil => simp at ha
  | cons v a ih =>
    simp only [List.map_cons, parseElements, Option.getD_some, parseInt_toString_eq]
    by_cases hv : Int64Range v
    · obtain ⟨e, he⟩ := ih (i + 1) (by simpa [hv] using ha)
      simp only [if_pos hv, he]
      exact ⟨e, rfl⟩
    · simp only [if_neg hv]
      exact ⟨_, rfl⟩

theorem parseElements_range {i : Nat} {es : List (Option (List Char))} {a : List Int}
    (h : parseElements i es = .ok a) : ∀ v ∈ a, Int64Range v := by
  induction es generalizing i a with
  | nil => cases h; nofun
  | cons e es ih =>
    simp only [parseElements] at h
    split at h
    · cases h
    · next v hv =>
      cases hp : parseElements (i + 1) es with
      | error _ => simp [hp, Except.map] at h
      | ok a' =>
        simp only [hp, Except.map, Except.ok.injEq] at h
        subst h
        exact List.forall_mem_cons.mpr ⟨parseInt_range hv, ih hp⟩

theorem scanInt64Array_int64ArrayText_eq (a : List Int) :
    scanInt64Array (int64ArrayText a) = parseElements 0 (a.map fun v => some (toString v).data) := by
  rw [scanInt64Array, scanLinearArray_int64ArrayText, ok_bind]

theorem scanInt64Array_int64ArrayText {a : List Int} (ha : ∀ v ∈ a, Int64Range v) :
    scanInt64Array (int64ArrayText a) = .ok a := by
  rw [scanInt64Array_int64ArrayText_eq, parseElements_toString 0 ha]

theorem scanInt64Array_range {s : String} {a : List Int} (h : scanInt64Array s = .ok a) :
    ∀ v ∈ a, Int64Range v := by
  obtain ⟨elems, -, h⟩ := bind_eq_ok h
  exact parseElements_range h

theorem scanInt64Array_value_iff (s : String) (a b : List Int) :
    (scanInt64Array s = .ok b → ∀ v ∈ b, Int64Range v) ∧
      (scanInt64Array (int64ArrayText a) = .ok b ↔ b = a ∧ ∀ v ∈ a, Int64Range v) := by
  refine ⟨scanInt64Array_range, ?_⟩
  by_cases ha : ∀ v ∈ a, Int64Range v
  · rw [scanInt64Array_int64ArrayText ha, Except.ok.injEq]
    exact ⟨fun h => ⟨h.symm, ha⟩, fun h => h.1.symm⟩
  · obtain ⟨e, he⟩ := parseElements_toString_error 0 (by simpa using ha)
    rw [scanInt64Array_int64ArrayText_eq, he]
    exact ⟨nofun, fun h => absurd h.2 ha⟩

example : scanInt64Array "\x7b\"1\",NULL\x7d" = .error (.message
    "pq: parsing array element index 1: strconv.ParseInt: parsing \"\": invalid syntax") := by
  decide

inductive SQLiteValue
  | integer (n : Int)
  | text (s : String)
  | null
  deriving DecidableEq

def int64ArrayValue (a : List Int) : SQLiteValue := .text (int64ArrayText a)

def trimWhitespace (cs : List Char) : List Char :=
  ((cs.dropWhile Char.isWhitespace).reverse.dropWhile Char.isWhitespace).reverse

/-- SQLite's numeric affinity on a value: a TEXT that is a well-formed integer literal, whitespace
around it allowed, becomes that INTEGER; any other value stays as it is. Real literals, which
become REAL, are not modelled. -/
def SQLiteValue.numeric : SQLiteValue → SQLiteValue
  | .text s =>
    match parseInt (trimWhitespace s.data) with
    | .ok n => .integer n
    | .error _ => .text s
  | v => v

/-- `x IN ($1)` for the INTEGER `x` of a row and the value bound to `$1`. SQLite reads it as
`x = +$1` (datatype3.html, 4.2): the bound value, which has no affinity, takes the numeric
affinity of `x`, and an INTEGER equals only an INTEGER of the same value. -/
def inParam (x : Int) (v : SQLiteValue) : Bool :=
  match v.numeric with
  | .integer n => x == n
  | _ => false

theorem trimWhitespace_brace (t : List Char) : ∃ t', trimWhitespace ('{' :: t) = '{' :: t' := by
  have hb : Char.isWhitespace '{' = false := by decide
  have h1 : ('{' :: t).dropWhile Char.isWhitespace = '{' :: t :=
    List.dropWhile_cons_of_neg (by simp [hb])
  rw [trimWhitespace, h1, List.reverse_cons, List.dropWhile_append]
  split_ifs
  · exact ⟨[], by simp [hb]⟩
  · exact ⟨(t.reverse.dropWhile Char.isWhitespace).reverse, by simp⟩

theorem int64ArrayText_brace (a : List Int) : ∃ t, (int64ArrayText a).data = '{' :: t := by
  cases a with
  | nil => exact ⟨['}'], rfl⟩
  | cons v vs => exact ⟨_, rfl⟩

theorem inParam_int64ArrayValue (x : Int) (a : List Int) : inParam x (int64ArrayValue a) = false := by
  obtain ⟨t, ht⟩ := int64ArrayText_brace a
  obtain ⟨t', ht'⟩ := trimWhitespace_brace t
  have hp : parseInt ('{' :: t') = .error .invalid := by
    have hd : digitValue '{' = none := by decide
    simp [parseInt, parseUint, readDigits, hd]
    rfl
  simp only [inParam, int64ArrayValue, SQLiteValue.numeric, ht, ht', hp]

end Dendrite.RoomServer
