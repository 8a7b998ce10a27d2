import Mathlib.Data.List.TakeWhile
import Cutscene.Json.Number
import Cutscene.Json.Parser

/-!
# Numerals

The numbers of JSON by their grammar: a sign if any, a whole part without leading zeros, and a fraction
and an exponent if any. The reader takes a numeral off whole.

Results:
* `number?_append`: a numeral is taken off as it stands, when nothing follows that could belong to it.
* `isNumeral_int`, `between?_int`, `nat8?_int` to `int32?_int`: whole numbers are numerals and are read
  as what they are.
-/

namespace Cutscene

namespace Json

/-! ## The grammar -/

/-- One or more digits. -/
def IsDigits (cs : List Char) : Prop := cs ≠ [] ∧ ∀ c ∈ cs, c.isDigit = true

/-- Digits that start with zero only if zero is the only one. -/
def IsWhole (cs : List Char) : Prop := IsDigits cs ∧ (cs.head? = some '0' → cs = ['0'])

/-- A point and digits, or nothing. -/
inductive IsFraction : List Char → Prop
  | none : IsFraction []
  | some {ds} (h : IsDigits ds) : IsFraction ('.' :: ds)

/-- An exponent with or without a sign, or nothing. -/
inductive IsExponent : List Char → Prop
  | none : IsExponent []
  | plain {ds} (h : IsDigits ds) : IsExponent ('e' :: ds)
  | plus {ds} (h : IsDigits ds) : IsExponent ('e' :: '+' :: ds)
  | minus {ds} (h : IsDigits ds) : IsExponent ('e' :: '-' :: ds)

/-- A number without its sign. -/
inductive IsMagnitude : List Char → Prop
  | parts {w f e} (hw : IsWhole w) (hf : IsFraction f) (he : IsExponent e) : IsMagnitude (w ++ f ++ e)

theorem IsWhole.magnitude {w : List Char} (h : IsWhole w) : IsMagnitude w := by
  have hparts := IsMagnitude.parts h .none .none
  rwa [List.append_nil, List.append_nil] at hparts

/-- A number as JSON has it. -/
inductive IsNumeral : List Char → Prop
  | positive {cs} (h : IsMagnitude cs) : IsNumeral cs
  | negative {cs} (h : IsMagnitude cs) : IsNumeral ('-' :: cs)

/-- What follows does not start with a character of this kind. -/
def Stops (p : Char → Bool) (rest : List Char) : Prop := ∀ c ∈ rest.head?, p c = false

/-- The characters that can go on with a numeral. -/
def goesOn (c : Char) : Bool := c.isDigit || c = '.' || c = 'e' || c = 'E'

theorem Stops.mono {p q : Char → Bool} {rest : List Char} (h : Stops p rest)
    (hpq : ∀ c, q c = true → p c = true) : Stops q rest := by
  intro c hc
  cases hq : q c with
  | false => rfl
  | true => exact absurd (hpq c hq) (by simp [h c hc])

theorem IsFraction.stops {f rest : List Char} (hf : IsFraction f) (hrest : Stops Char.isDigit rest) :
    Stops Char.isDigit (f ++ rest) := by
  cases hf with
  | none => exact hrest
  | some _ =>
    rintro c ⟨⟩
    rfl

theorem IsExponent.stops {e rest : List Char} (he : IsExponent e) {p : Char → Bool} (hp : p 'e' = false)
    (hrest : Stops p rest) : Stops p (e ++ rest) := by
  cases he with
  | none => exact hrest
  | _ =>
    rintro c ⟨⟩
    exact hp

/-! ## Reading -/

theorem digits?_append {ds rest : List Char} (h : IsDigits ds) (hrest : Stops Char.isDigit rest) :
    digits? (ds ++ rest) = some (ds, rest) := by
  have hnone : rest.takeWhile Char.isDigit = [] ∧ rest.dropWhile Char.isDigit = rest := by
    cases rest with
    | nil => exact ⟨rfl, rfl⟩
    | cons c r => simp [hrest c rfl]
  unfold digits?
  rw [List.takeWhile_append_of_pos h.2, List.dropWhile_append_of_pos h.2, hnone.1, hnone.2, List.append_nil]
  simp [h.1]

theorem whole?_append {w rest : List Char} (h : IsWhole w) (hrest : Stops Char.isDigit rest) :
    whole? (w ++ rest) = some (w, rest) := by
  obtain ⟨hdigits, hzero⟩ := h
  cases w with
  | nil => exact absurd rfl hdigits.1
  | cons c r =>
    by_cases hc : c = '0'
    · subst hc
      obtain rfl : r = [] := List.cons.inj (hzero rfl) |>.2
      cases rest with
      | nil => rfl
      | cons d s => simp [whole?, hrest d rfl]
    · have hdigits? : whole? (c :: r ++ rest) = digits? (c :: r ++ rest) := by
        rw [List.cons_append, whole?]
        rintro s ⟨⟩
        exact hc rfl
      rw [hdigits?, digits?_append hdigits hrest]

theorem fraction?_append {f rest : List Char} (h : IsFraction f)
    (hrest : Stops (fun c => c.isDigit || c = '.') rest) : fraction? (f ++ rest) = some (f, rest) := by
  cases h with
  | none =>
    rw [List.nil_append, fraction?]
    rintro r rfl
    exact absurd (hrest '.' rfl) (by decide)
  | some hds =>
    rw [List.cons_append, fraction?, digits?_append hds (hrest.mono fun c hc => by simp [hc])]
    rfl

theorem exponent?_append {e rest : List Char} (h : IsExponent e) (hrest : Stops goesOn rest) :
    exponent? (e ++ rest) = some (e, rest) := by
  have hstops : Stops Char.isDigit rest := hrest.mono fun c hc => by simp [goesOn, hc]
  cases h with
  | none =>
    cases rest with
    | nil => rfl
    | cons c r =>
      have hc : ¬(c = 'e' ∨ c = 'E') := by
        have hstop := hrest c rfl
        rintro (rfl | rfl) <;> exact absurd hstop (by decide)
      simp [exponent?, hc]
  | plus hds => simp [exponent?, digits?_append hds hstops]
  | minus hds => simp [exponent?, digits?_append hds hstops]
  | @plain ds hds =>
    -- A digit comes next, so neither of the signs does.
    have hsign : ∀ c r, ds ++ rest = c :: r → c.isDigit = true := by
      intro c r hc
      cases ds with
      | nil => exact absurd rfl hds.1
      | cons d s => exact (List.cons.inj hc).1 ▸ hds.2 d List.mem_cons_self
    rw [List.cons_append, exponent?, if_pos (.inl rfl), digits?_append hds hstops]
    · rfl
    · exact fun r hr => absurd (hsign _ _ hr) (by decide)
    · exact fun r hr => absurd (hsign _ _ hr) (by decide)

theorem magnitude?_append {cs rest : List Char} (h : IsMagnitude cs) (hrest : Stops goesOn rest) :
    magnitude? (cs ++ rest) = some (cs, rest) := by
  obtain ⟨hw, hf, he⟩ := h
  rename_i w f e
  have hstops : Stops (fun c => c.isDigit || c = '.') (e ++ rest) :=
    he.stops rfl (hrest.mono fun c hc => by simp only [goesOn, hc, Bool.true_or])
  unfold magnitude?
  rw [List.append_assoc, List.append_assoc,
    whole?_append hw (hf.stops (hstops.mono fun c hc => by simp [hc])), Option.bind_eq_bind, Option.bind_some]
  simp only [fraction?_append hf hstops, exponent?_append he hrest, Option.bind_some]

theorem IsMagnitude.head {cs : List Char} (h : IsMagnitude cs) : ∃ c r, cs = c :: r ∧ c.isDigit = true := by
  obtain ⟨hw, -, -⟩ := h
  rename_i w f e
  cases w with
  | nil => exact absurd rfl hw.1.1
  | cons c r => exact ⟨c, r ++ f ++ e, rfl, hw.1.2 c List.mem_cons_self⟩

/-- A numeral starts with a digit or a minus sign. -/
theorem IsNumeral.head {cs : List Char} (h : IsNumeral cs) :
    ∃ c r, cs = c :: r ∧ (c = '-' ∨ c.isDigit = true) := by
  cases h with
  | positive h =>
    obtain ⟨c, r, hcs, hc⟩ := h.head
    exact ⟨c, r, hcs, .inr hc⟩
  | negative _ => exact ⟨'-', _, rfl, .inl rfl⟩

/-- A numeral is taken off as it stands. -/
theorem number?_append {cs rest : List Char} (h : IsNumeral cs) (hrest : Stops goesOn rest) :
    number? (cs ++ rest) = some (cs, rest) := by
  cases h with
  | negative h =>
    rw [List.cons_append, number?, magnitude?_append h hrest]
    rfl
  | positive h =>
    rw [number?, magnitude?_append h hrest]
    intro r hr
    obtain ⟨c, s, rfl, hc⟩ := h.head
    exact absurd ((List.cons.inj hr).1 ▸ hc) (by decide)

/-! ## Whole numbers -/

theorem isDigits_toDigits (n : Nat) : IsDigits (Nat.toDigits 10 n) :=
  ⟨Nat.toDigits_ne_nil, fun _ hc => Nat.isDigit_of_mem_toDigits (by decide) (by decide) hc⟩

theorem head?_toDigits {n : Nat} (h : n ≠ 0) : (Nat.toDigits 10 n).head? ≠ some '0' := by
  induction n using Nat.strongRecOn with
  | ind n ih =>
    rw [Nat.toDigits_eq_if (by decide)]
    split_ifs with hsmall
    · have hdigit : ∀ n < 10, n ≠ 0 → n.digitChar ≠ '0' := by decide
      rintro hhead
      exact hdigit n hsmall h (Option.some.inj hhead)
    · have hrest := ih (n / 10) (Nat.div_lt_self (Nat.pos_of_ne_zero h) (by decide)) (by omega)
      rw [List.head?_append]
      cases hdigits : Nat.toDigits 10 (n / 10) with
      | nil => exact absurd hdigits Nat.toDigits_ne_nil
      | cons d s => rwa [hdigits] at hrest

theorem isWhole_toDigits (n : Nat) : IsWhole (Nat.toDigits 10 n) := by
  refine ⟨isDigits_toDigits n, fun hhead => ?_⟩
  by_cases h : n = 0
  · rw [h]
    rfl
  · exact absurd hhead (head?_toDigits h)

theorem toList_repr (n : Nat) : (Nat.repr n).toList = Nat.toDigits 10 n := by
  rw [Nat.repr_eq_ofList_toDigits, String.toList_ofList]

theorem toList_int (n : Int) : (toString n).toList =
    (if n < 0 then ['-'] else []) ++ Nat.toDigits 10 n.natAbs := by
  cases n with
  | ofNat n => exact toList_repr n
  | negSucc n =>
    have htext : toString (Int.negSucc n) = "-" ++ Nat.repr (n + 1) := rfl
    rw [htext, String.toList_append, toList_repr, if_pos (Int.negSucc_lt_zero n)]
    rfl

theorem isNumeral_int (n : Int) : IsNumeral (toString n).toList := by
  have hwhole := isWhole_toDigits n.natAbs
  rw [toList_int]
  split_ifs
  · exact .negative hwhole.magnitude
  · exact .positive hwhole.magnitude

theorem allDigits?_toDigits (n : Nat) : allDigits? (Nat.toDigits 10 n) = some n := by
  have hdigits := isDigits_toDigits n
  unfold allDigits?
  rw [if_pos ⟨hdigits.1, List.all_eq_true.mpr hdigits.2⟩, Decimal.value, ← Nat.ofDigitChars_eq_foldl,
    Nat.ofDigitChars_ten_toDigits]

theorem wholeToken?_int (n : Int) : wholeToken? (toString n) = some n := by
  unfold wholeToken?
  rw [toList_int]
  split_ifs with hneg
  · have hn : n.natAbs ≠ 0 := by omega
    simp only [List.singleton_append, allDigits?_toDigits, Option.bind_some, if_neg hn, Option.some.injEq]
    omega
  · rw [List.nil_append]
    split
    · rename_i ds hds
      have hdigits := (isDigits_toDigits n.natAbs).2 '-' (hds ▸ List.mem_cons_self)
      exact absurd hdigits (by decide)
    · rw [allDigits?_toDigits, Option.map_some, Option.some.injEq]
      exact Int.natAbs_of_nonneg (Int.not_lt.mp hneg)

theorem between?_int {low high n : Int} (hlow : low ≤ n) (hhigh : n ≤ high) :
    between? low high (int n) = some n := by
  simp only [between?, int, wholeToken?_int]
  simp [hlow, hhigh]

theorem nat8?_int (n : UInt8) : nat8? (int n.toNat) = some n := by
  have hlt := n.toNat_lt
  rw [nat8?, between?_int (by omega) (by omega)]
  simp

theorem nat32?_int (n : UInt32) : nat32? (int n.toNat) = some n := by
  have hlt := n.toNat_lt
  rw [nat32?, between?_int (by omega) (by omega)]
  simp

theorem nat64?_int (n : UInt64) : nat64? (int n.toNat) = some n := by
  have hlt := n.toNat_lt
  rw [nat64?, between?_int (by omega) (by omega)]
  simp

theorem int32?_int (n : Int32) : int32? (int n.toInt) = some n := by
  have hlow := n.le_toInt
  have hhigh := n.toInt_lt
  rw [int32?, between?_int (by omega) (by omega)]
  simp

end Json

end Cutscene
