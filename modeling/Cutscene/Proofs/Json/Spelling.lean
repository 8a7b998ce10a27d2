import Mathlib.Data.List.DropRight
import Cutscene.Json.Printer
import Cutscene.Proofs.Number.Layout

/-!
# Spellings

A value can be spelled in many ways, with blanks between any two tokens. The reader takes every spelling
for the value, whatever follows it, and what the printer writes is a spelling.

Results:
* `string?_quote?`: a string is read back, whatever its characters.
* `Spells`: the spellings of a value. `Spells.isRead`: they are read as the value.
* `Spelled.ofText?`: so is a whole text with blanks around it.
* `Spelled.compact`, `Spelled.pretty`: the compact text of a value is a spelling of it, and so is the text
  that is laid out over lines.
-/

namespace Cutscene.Json

/-! ## Strings -/

theorem units?_plain {c : Char} (hquote : c ≠ '"') (hslash : c ≠ '\\') (hcontrol : ¬c.toNat < 32)
    (r : List Char) : units? (c :: r) = (units? r).map fun (us, r) => (.char c :: us, r) := by
  rw [units?, if_neg hcontrol]
  · exact hquote
  · exact fun _ _ _ _ _ h => absurd h hslash
  · exact fun _ _ h => absurd h hslash

theorem units?_short {c d : Char} (hd : unescape? d = some c) (hu : d ≠ 'u') (r : List Char) :
    units? ('\\' :: d :: r) = (units? r).map fun (us, r) => (.char c :: us, r) := by
  rw [units?, hd]
  · cases units? r <;> rfl
  · exact fun _ _ _ _ _ h => absurd h hu

theorem units?_control {c : Char} (hc : c.toNat < 32) (r : List Char) :
    units? ('\\' :: 'u' :: '0' :: '0' :: hexDigit (c.toNat / 16) :: hexDigit (c.toNat % 16) :: r) =
      (units? r).map fun (us, r) => (.char c :: us, r) := by
  have hvalue : ∀ n < 32, hexValue4? '0' '0' (hexDigit (n / 16)) (hexDigit (n % 16)) = some n := by decide
  have hchar : Unit16.ofNat c.toNat = .char c := by
    unfold Unit16.ofNat
    rw [if_neg (by omega), if_neg (by omega), Char.ofNat_toNat]
  rw [units?, hvalue _ hc, ← hchar]
  cases units? r <;> rfl

/-- A character is read back from the way it is written inside a string. -/
theorem units?_escape (c : Char) (r : List Char) :
    units? (escape c ++ r) = (units? r).map fun (us, r) => (.char c :: us, r) := by
  have hshort : ∀ {c d}, unescape? d = some c → d ≠ 'u' →
      units? (['\\', d] ++ r) = (units? r).map fun (us, r) => (.char c :: us, r) :=
    fun hd hu => units?_short hd hu r
  unfold escape
  split_ifs with h₁ h₂ h₃ h₄ h₅ h₆ h₇ hcontrol
  · subst h₁
    exact hshort (by decide) (by decide)
  · subst h₂
    exact hshort (by decide) (by decide)
  · subst h₃
    exact hshort (by decide) (by decide)
  · subst h₄
    exact hshort (by decide) (by decide)
  · subst h₅
    exact hshort (by decide) (by decide)
  · subst h₆
    exact hshort (by decide) (by decide)
  · subst h₇
    exact hshort (by decide) (by decide)
  · exact units?_control hcontrol r
  · exact units?_plain h₁ h₂ hcontrol r

theorem units?_text (cs r : List Char) :
    units? (cs.flatMap escape ++ '"' :: r) = some (cs.map .char, r) := by
  induction cs with
  | nil => rfl
  | cons c cs ih =>
    rw [List.flatMap_cons, List.append_assoc, units?_escape, ih]
    rfl

theorem chars?_text (cs : List Char) : chars? (cs.map .char) = some cs := by
  induction cs with
  | nil => rfl
  | cons c cs ih =>
    rw [List.map_cons, chars?, ih]
    rfl

/-- A string is read back from the way it is written. -/
theorem string?_quote? (s : Option String) (r : List Char) :
    ∃ cs, (quote? s).toList = '"' :: cs ∧ string? (cs ++ r) = some (s, r) := by
  cases s with
  | none => exact ⟨_, rfl, rfl⟩
  | some s =>
    refine ⟨s.toList.flatMap escape ++ ['"'], by simp [quote?, quote], ?_⟩
    unfold string?
    rw [List.append_assoc, List.singleton_append, units?_text]
    simp [chars?_text]

/-! ## Spellings -/

/-- Blanks alone. -/
def IsBlanks (b : List Char) : Prop := ∀ c ∈ b, isBlank c = true

/-- A value, or what stands between the brackets of an array or the braces of an object. -/
inductive Part where
  | value (j : Json)
  | items (js : List Json)
  | members (ms : List (Option String × Json))

/-- The spellings of a value: blanks are free around items, keys and values. -/
inductive Spells : Part → List Char → Prop
  | null : Spells (.value .null) ['n', 'u', 'l', 'l']
  | isTrue : Spells (.value (.bool true)) ['t', 'r', 'u', 'e']
  | isFalse : Spells (.value (.bool false)) ['f', 'a', 'l', 's', 'e']
  | number {token} (h : IsNumeral token.toList) : Spells (.value (.number token)) token.toList
  | string (s) : Spells (.value (.string s)) (quote? s).toList
  | noItems {b} (hb : IsBlanks b) : Spells (.value (.array [])) ('[' :: (b ++ [']']))
  | array {js cs} (h : Spells (.items js) cs) : Spells (.value (.array js)) ('[' :: (cs ++ [']']))
  | noMembers {b} (hb : IsBlanks b) : Spells (.value (.object [])) ('\x7b' :: (b ++ ['\x7d']))
  | object {ms cs} (h : Spells (.members ms) cs) : Spells (.value (.object ms)) ('\x7b' :: (cs ++ ['\x7d']))
  | lastItem {v cs b b'} (hb : IsBlanks b) (h : Spells (.value v) cs) (hb' : IsBlanks b') :
      Spells (.items [v]) (b ++ cs ++ b')
  | item {v js cs ds b b'} (hb : IsBlanks b) (h : Spells (.value v) cs) (hb' : IsBlanks b')
      (hr : Spells (.items js) ds) : Spells (.items (v :: js)) (b ++ cs ++ b' ++ ',' :: ds)
  | lastMember {k v cs a a' b b'} (ha : IsBlanks a) (ha' : IsBlanks a') (hb : IsBlanks b)
      (h : Spells (.value v) cs) (hb' : IsBlanks b') :
      Spells (.members [(k, v)]) (a ++ (quote? k).toList ++ a' ++ ':' :: (b ++ cs ++ b'))
  | member {k v ms cs ds a a' b b'} (ha : IsBlanks a) (ha' : IsBlanks a') (hb : IsBlanks b)
      (h : Spells (.value v) cs) (hb' : IsBlanks b') (hr : Spells (.members ms) ds) :
      Spells (.members ((k, v) :: ms)) (a ++ (quote? k).toList ++ a' ++ ':' :: (b ++ cs ++ b' ++ ',' :: ds))

/-- The character that a value starts with is no blank and closes nothing. -/
theorem Spells.head {j : Json} {cs : List Char} (h : Spells (.value j) cs) :
    ∃ c r, cs = c :: r ∧ isBlank c = false ∧ c ≠ ']' := by
  generalize hpart : Part.value j = part at h
  cases h with
  | number h =>
    obtain ⟨c, r, hcs, hc⟩ := h.head
    refine ⟨c, r, hcs, ?_⟩
    rcases hc with rfl | hc
    · decide
    · constructor
      · cases hblank : isBlank c with
        | false => rfl
        | true =>
          simp only [isBlank, Bool.or_eq_true, decide_eq_true_eq] at hblank
          rcases hblank with ((rfl | rfl) | rfl) | rfl <;> exact absurd hc (by decide)
      · rintro rfl
        exact absurd hc (by decide)
  | string s =>
    obtain ⟨cs, hcs, -⟩ := string?_quote? s []
    exact ⟨'"', cs, hcs, by decide⟩
  | lastItem | item | lastMember | member => cases hpart
  | _ => exact ⟨_, _, rfl, by decide⟩

theorem Spells.length_pos {j : Json} {cs : List Char} (h : Spells (.value j) cs) : 0 < cs.length := by
  obtain ⟨c, r, rfl, -⟩ := h.head
  exact Nat.succ_pos _

theorem Spells.exists_fuel {j : Json} {cs : List Char} (h : Spells (.value j) cs) {fuel : Nat}
    (hfuel : cs.length ≤ fuel) : ∃ n, fuel = n + 1 :=
  Nat.exists_eq_succ_of_ne_zero (Nat.ne_of_gt (Nat.lt_of_lt_of_le h.length_pos hfuel))

/-! ## Reading -/

theorem skipBlanks_append {b cs : List Char} (hb : IsBlanks b) : skipBlanks (b ++ cs) = skipBlanks cs :=
  List.dropWhile_append_of_pos hb

theorem skipBlanks_cons {c : Char} (h : isBlank c = false) (r : List Char) : skipBlanks (c :: r) = c :: r := by
  unfold skipBlanks
  rw [List.dropWhile_cons_of_neg (by simp [h])]

theorem skipBlanks_skipBlanks (cs : List Char) : skipBlanks (skipBlanks cs) = skipBlanks cs :=
  List.dropWhile_idempotent _ cs

theorem IsBlanks.stops {b rest : List Char} (hb : IsBlanks b) (hrest : Stops goesOn rest) :
    Stops goesOn (b ++ rest) := by
  cases b with
  | nil => exact hrest
  | cons c r =>
    rintro d ⟨⟩
    have hblank := hb c List.mem_cons_self
    simp only [isBlank, Bool.or_eq_true, decide_eq_true_eq] at hblank
    rcases hblank with ((rfl | rfl) | rfl) | rfl <;> rfl

theorem value?_of_isNumeral {cs rest : List Char} (h : IsNumeral cs) (hrest : Stops goesOn rest) (fuel : Nat) :
    value? (fuel + 1) (cs ++ rest) = some (.number (String.ofList cs), rest) := by
  have hnumber := number?_append h hrest
  obtain ⟨c, r, rfl, hc⟩ := h.head
  rw [List.cons_append] at hnumber ⊢
  have hother : ∀ d ∈ ['n', 't', 'f', '"', '[', '\x7b'], c ≠ d := by
    have hnone : ∀ d ∈ ['n', 't', 'f', '"', '[', '\x7b'], d ≠ '-' ∧ d.isDigit = false := by simp
    rintro d hd rfl
    obtain ⟨hminus, hdigit⟩ := hnone c hd
    rcases hc with hc | hc
    · exact hminus hc
    · exact absurd hc (by simp [hdigit])
  rw [value?, hnumber]
  · rfl
  · exact nofun
  all_goals exact fun r hr => hother _ (by decide) (List.cons.inj hr).1

theorem items?_skipBlanks (fuel : Nat) (cs : List Char) : items? fuel (skipBlanks cs) = items? fuel cs := by
  cases fuel with
  | zero => rfl
  | succ fuel => rw [items?, items?, skipBlanks_skipBlanks]

theorem members?_skipBlanks (fuel : Nat) (cs : List Char) :
    members? fuel (skipBlanks cs) = members? fuel cs := by
  cases fuel with
  | zero => rfl
  | succ fuel => rw [members?, members?, skipBlanks_skipBlanks]

/-- Blanks in front of a value are all that is skipped. -/
theorem Spells.skipBlanks {j : Json} {cs b : List Char} (h : Spells (.value j) cs) (hb : IsBlanks b)
    (rest : List Char) : skipBlanks (b ++ cs ++ rest) = cs ++ rest := by
  obtain ⟨c, r, rfl, hc, -⟩ := h.head
  rw [List.append_assoc, skipBlanks_append hb, List.cons_append, skipBlanks_cons hc]

/-- What stands between brackets does not begin with the closing one. -/
theorem Spells.items_head {js : List Json} {cs : List Char} (h : Spells (.items js) cs) (rest : List Char) :
    (Json.skipBlanks (cs ++ rest)).head? ≠ some ']' := by
  have hitem : ∀ {v : Json} {b cs : List Char}, IsBlanks b → Spells (.value v) cs → ∀ rest,
      (Json.skipBlanks (b ++ cs ++ rest)).head? ≠ some ']' := by
    intro v b cs hb h rest
    rw [h.skipBlanks hb]
    obtain ⟨c, r, rfl, -, hc⟩ := h.head
    exact fun hhead => hc (Option.some.inj hhead)
  cases h with
  | lastItem hb h _ =>
    rw [List.append_assoc]
    exact hitem hb h _
  | item hb h _ _ =>
    rw [List.append_assoc, List.append_assoc]
    exact hitem hb h _

theorem skipBlanks_quote? {b : List Char} (hb : IsBlanks b) (k : Option String) (rest : List Char) :
    ∃ cs, Json.skipBlanks (b ++ (quote? k).toList ++ rest) = '"' :: cs ∧ string? cs = some (k, rest) := by
  obtain ⟨cs, hcs, hstring⟩ := string?_quote? k rest
  refine ⟨cs ++ rest, ?_, hstring⟩
  rw [List.append_assoc, skipBlanks_append hb, hcs, List.cons_append, skipBlanks_cons (by decide)]

theorem Spells.members_head {ms : List (Option String × Json)} {cs : List Char} (h : Spells (.members ms) cs)
    (rest : List Char) : (Json.skipBlanks (cs ++ rest)).head? ≠ some '\x7d' := by
  have hkey : ∀ {a : List Char}, IsBlanks a → ∀ k rest,
      (Json.skipBlanks (a ++ (quote? k).toList ++ rest)).head? ≠ some '\x7d' := by
    intro a ha k rest
    obtain ⟨cs, hcs, -⟩ := skipBlanks_quote? ha k rest
    rw [hcs]
    exact fun hhead => absurd (Option.some.inj hhead) (by decide)
  cases h with
  | lastMember ha _ _ _ _ =>
    rw [List.append_assoc, List.append_assoc]
    exact hkey ha _ _
  | member ha _ _ _ _ _ =>
    rw [List.append_assoc, List.append_assoc]
    exact hkey ha _ _

theorem value?_array {r : List Char} (h : (Json.skipBlanks r).head? ≠ some ']') (fuel : Nat) :
    value? (fuel + 1) ('[' :: r) = (items? fuel r).map fun (vs, r) => (.array vs, r) := by
  rw [value?, ← items?_skipBlanks]
  split
  · rename_i s hs
    exact absurd (congrArg List.head? hs) h
  · rfl

theorem value?_object {r : List Char} (h : (Json.skipBlanks r).head? ≠ some '\x7d') (fuel : Nat) :
    value? (fuel + 1) ('\x7b' :: r) = (members? fuel r).map fun (ms, r) => (.object ms, r) := by
  rw [value?, ← members?_skipBlanks]
  split
  · rename_i s hs
    exact absurd (congrArg List.head? hs) h
  · rfl

/-- What is read behind an item. -/
def behindItem? (fuel : Nat) (v : Json) : List Char → Option (List Json × List Char)
  | ',' :: r => (items? fuel r).map fun (vs, r) => (v :: vs, r)
  | ']' :: r => some ([v], r)
  | _ => none

/-- What is read behind a member. -/
def behindMember? (fuel : Nat) (k : Option String) (v : Json) :
    List Char → Option (List (Option String × Json) × List Char)
  | ',' :: r => (members? fuel r).map fun (ms, r) => ((k, v) :: ms, r)
  | '\x7d' :: r => some ([(k, v)], r)
  | _ => none

/-- What the reader makes of a part, with enough fuel and what can stand behind it. -/
def Part.IsRead : Part → List Char → Prop
  | .value j, cs => ∀ fuel rest, cs.length ≤ fuel + 1 → Stops goesOn rest →
      value? (fuel + 1) (cs ++ rest) = some (j, rest)
  | .items js, cs => ∀ fuel rest, cs.length ≤ fuel → items? (fuel + 1) (cs ++ ']' :: rest) = some (js, rest)
  | .members ms, cs => ∀ fuel rest, cs.length ≤ fuel →
      members? (fuel + 1) (cs ++ '\x7d' :: rest) = some (ms, rest)

section Steps

variable {v : Json} {cs b b' : List Char} (hb : IsBlanks b) (h : Spells (.value v) cs) (hb' : IsBlanks b')
  (ih : (Part.value v).IsRead cs) {c : Char} (hblank : isBlank c = false) (hstop : goesOn c = false)
  {fuel : Nat} (hfuel : cs.length ≤ fuel + 1)

include hb' in
theorem stops_behind (hstop : goesOn c = false) (r : List Char) : Stops goesOn (b' ++ c :: r) :=
  hb'.stops fun _ hd => Option.some.inj hd ▸ hstop

include hb h hb' ih hblank hstop hfuel

/-- An item is taken off, and then what stands behind it. -/
theorem items?_item (r : List Char) :
    items? (fuel + 2) (b ++ cs ++ b' ++ c :: r) = behindItem? (fuel + 1) v (c :: r) := by
  rw [items?, List.append_assoc _ b', h.skipBlanks hb, ih fuel _ hfuel (stops_behind hb' hstop r)]
  simp only [Option.bind_eq_bind, Option.bind_some, skipBlanks_append hb', skipBlanks_cons hblank]
  rfl

/-- So is a member. -/
theorem members?_member {k : Option String} {a a' : List Char} (ha : IsBlanks a) (ha' : IsBlanks a')
    (r : List Char) :
    members? (fuel + 2) (a ++ (quote? k).toList ++ a' ++ ':' :: (b ++ cs ++ b' ++ c :: r)) =
      behindMember? (fuel + 1) k v (c :: r) := by
  obtain ⟨inside, hquote, hstring⟩ := skipBlanks_quote? ha k (a' ++ ':' :: (b ++ cs ++ (b' ++ c :: r)))
  have hcolon : ∀ s, Json.skipBlanks (a' ++ ':' :: s) = ':' :: s := fun s => by
    rw [skipBlanks_append ha', skipBlanks_cons (by decide)]
  rw [members?, List.append_assoc _ a', List.append_assoc _ b', hquote]
  simp only [hstring, hcolon, h.skipBlanks hb, ih fuel _ hfuel (stops_behind hb' hstop r),
    Option.bind_eq_bind, Option.bind_some, skipBlanks_append hb', skipBlanks_cons hblank]
  rfl

end Steps

/-- **Every spelling is read as what it spells.** -/
theorem Spells.isRead {part : Part} {cs : List Char} (h : Spells part cs) : part.IsRead cs := by
  induction h with
  | null => exact fun _ _ _ _ => rfl
  | isTrue => exact fun _ _ _ _ => rfl
  | isFalse => exact fun _ _ _ _ => rfl
  | number h =>
    intro fuel rest _ hrest
    rw [value?_of_isNumeral h hrest, String.ofList_toList]
  | string s =>
    intro fuel rest _ _
    obtain ⟨cs, hcs, hstring⟩ := string?_quote? s rest
    rw [hcs, List.cons_append, value?, hstring]
    rfl
  | noItems hb =>
    intro fuel rest _ _
    rw [List.cons_append, value?, List.append_assoc, skipBlanks_append hb, List.singleton_append,
      skipBlanks_cons (by decide)]
    rfl
  | @array js cs h ih =>
    intro fuel rest hfuel _
    rw [List.length_cons, List.length_append, List.length_singleton] at hfuel
    obtain ⟨fuel, rfl⟩ : ∃ n, fuel = n + 1 := Nat.exists_eq_succ_of_ne_zero (by omega)
    rw [List.cons_append, List.append_assoc, List.singleton_append, value?_array (h.items_head _),
      ih fuel rest (by omega)]
    rfl
  | noMembers hb =>
    intro fuel rest _ _
    rw [List.cons_append, value?, List.append_assoc, skipBlanks_append hb, List.singleton_append,
      skipBlanks_cons (by decide)]
    rfl
  | @object ms cs h ih =>
    intro fuel rest hfuel _
    rw [List.length_cons, List.length_append, List.length_singleton] at hfuel
    obtain ⟨fuel, rfl⟩ : ∃ n, fuel = n + 1 := Nat.exists_eq_succ_of_ne_zero (by omega)
    rw [List.cons_append, List.append_assoc, List.singleton_append, value?_object (h.members_head _),
      ih fuel rest (by omega)]
    rfl
  | lastItem hb h hb' ih =>
    intro fuel rest hfuel
    simp only [List.length_append] at hfuel
    obtain ⟨fuel, rfl⟩ := h.exists_fuel (Nat.le_trans (by omega) hfuel)
    exact items?_item hb h hb' ih (by decide) (by decide) (by omega) rest
  | @item v js cs ds b b' hb h hb' hr ih ihr =>
    intro fuel rest hfuel
    simp only [List.length_append, List.length_cons] at hfuel
    obtain ⟨fuel, rfl⟩ := h.exists_fuel (Nat.le_trans (by omega) hfuel)
    have hpos := h.length_pos
    have hfuel' : cs.length ≤ fuel + 1 := by omega
    have hread := items?_item hb h hb' ih (c := ',') (by decide) (by decide) hfuel' (ds ++ ']' :: rest)
    rw [List.append_assoc, List.cons_append, hread, behindItem?, ihr fuel rest (by omega)]
    rfl
  | lastMember ha ha' hb h hb' ih =>
    intro fuel rest hfuel
    simp only [List.length_append, List.length_cons] at hfuel
    obtain ⟨fuel, rfl⟩ := h.exists_fuel (Nat.le_trans (by omega) hfuel)
    rw [List.append_assoc, List.cons_append]
    exact members?_member hb h hb' ih (by decide) (by decide) (by omega) ha ha' rest
  | @member k v ms cs ds a a' b b' ha ha' hb h hb' hr ih ihr =>
    intro fuel rest hfuel
    simp only [List.length_append, List.length_cons] at hfuel
    obtain ⟨fuel, rfl⟩ := h.exists_fuel (Nat.le_trans (by omega) hfuel)
    have hpos := h.length_pos
    have hfuel' : cs.length ≤ fuel + 1 := by omega
    have hread := members?_member hb h hb' ih (c := ',') (by decide) (by decide) hfuel' ha ha' (k := k)
      (ds ++ '\x7d' :: rest)
    rw [List.append_assoc, List.cons_append, List.append_assoc (b ++ cs ++ b'), List.cons_append, hread,
      behindMember?, ihr fuel rest (by omega)]
    rfl

/-- A text that spells a value, with blanks before and behind it. -/
def Spelled (j : Json) (s : String) : Prop :=
  ∃ b cs b', IsBlanks b ∧ Spells (.value j) cs ∧ IsBlanks b' ∧ s.toList = b ++ cs ++ b'

/-- **A text is read as the value that it spells.** -/
theorem Spelled.ofText? {j : Json} {s : String} (h : j.Spelled s) : ofText? s = some j := by
  obtain ⟨b, cs, b', hb, h, hb', hs⟩ := h
  have hskip : Json.skipBlanks s.toList = cs ++ b' := by
    rw [hs]
    exact h.skipBlanks hb b'
  have hstops : Stops goesOn b' := by
    have hend : Stops goesOn (b' ++ []) := hb'.stops nofun
    rwa [List.append_nil] at hend
  have hread := h.isRead (2 * (cs ++ b').length) b' (by rw [List.length_append]; omega) hstops
  have hrest : Json.skipBlanks b' = [] := by
    rw [← List.append_nil b', skipBlanks_append hb']
    rfl
  unfold Json.ofText?
  simp only [hskip, hread, Option.bind_eq_bind, Option.bind_some, hrest]
  rfl

/-! ## The compact text -/

mutual

/-- Whether all numbers are numerals. -/
def Sound : Json → Prop
  | number token => IsNumeral token.toList
  | array items => SoundItems items
  | object members => SoundMembers members
  | _ => True

def SoundItems : List Json → Prop
  | [] => True
  | v :: r => v.Sound ∧ SoundItems r

def SoundMembers : List (Option String × Json) → Prop
  | [] => True
  | (_, v) :: r => v.Sound ∧ SoundMembers r

end

theorem soundItems_iff {js : List Json} : SoundItems js ↔ ∀ j ∈ js, j.Sound := by
  induction js with
  | nil => simp [SoundItems]
  | cons j r ih => simp [SoundItems, ih]

theorem soundMembers_iff {ms : List (Option String × Json)} : SoundMembers ms ↔ ∀ m ∈ ms, m.2.Sound := by
  induction ms with
  | nil => simp [SoundMembers]
  | cons m r ih => simp [SoundMembers, ih]

theorem sound_record {fields : List (String × Json)} : (record fields).Sound ↔ ∀ f ∈ fields, f.2.Sound := by
  unfold record
  rw [Sound, soundMembers_iff, List.forall_mem_map]

theorem sound_text (s : String) : (text s).Sound := trivial

theorem sound_int (n : Int) : (int n).Sound := isNumeral_int n

theorem sound_float (x : Float) : (float x).Sound := by
  unfold float
  split_ifs with hfinite
  · exact Layout.json.isNumeral_text hfinite
  · trivial

theorem sound_float32 (x : Float32) : (float32 x).Sound := by
  unfold float32
  split_ifs with hfinite
  · exact Layout.json32.isNumeral_text32 hfinite
  · trivial

theorem isBlanks_nil : IsBlanks [] := fun _ h => absurd h List.not_mem_nil

mutual

theorem spells_compact : ∀ j : Json, j.Sound → Spells (.value j) j.compact.toList
  | .null, _ => .null
  | .bool true, _ => .isTrue
  | .bool false, _ => .isFalse
  | .number _, h => .number h
  | .string s, _ => .string s
  | .array [], _ => .noItems isBlanks_nil
  | .array (v :: r), h => by
    have hitems := Spells.array (spells_compactItems (v :: r) (List.cons_ne_nil v r) h)
    simpa [compact] using hitems
  | .object [], _ => .noMembers isBlanks_nil
  | .object (m :: r), h => by
    have hmembers := Spells.object (spells_compactMembers (m :: r) (List.cons_ne_nil m r) h)
    simpa [compact] using hmembers

theorem spells_compactItems : ∀ js : List Json, js ≠ [] → SoundItems js →
    Spells (.items js) (compactItems js).toList
  | [], hne, _ => absurd rfl hne
  | [v], _, h => by
    have hv := Spells.lastItem isBlanks_nil (spells_compact v h.1) isBlanks_nil
    simpa [compactItems] using hv
  | v :: w :: r, _, h => by
    have hr := spells_compactItems (w :: r) (List.cons_ne_nil w r) h.2
    have hv := Spells.item isBlanks_nil (spells_compact v h.1) isBlanks_nil hr
    simpa [compactItems] using hv

theorem spells_compactMembers : ∀ ms : List (Option String × Json), ms ≠ [] → SoundMembers ms →
    Spells (.members ms) (compactMembers ms).toList
  | [], hne, _ => absurd rfl hne
  | [(k, v)], _, h => by
    have hv := Spells.lastMember (k := k) isBlanks_nil isBlanks_nil isBlanks_nil (spells_compact v h.1)
      isBlanks_nil
    simpa [compactMembers] using hv
  | (k, v) :: n :: r, _, h => by
    have hr := spells_compactMembers (n :: r) (List.cons_ne_nil n r) h.2
    have hv := Spells.member (k := k) isBlanks_nil isBlanks_nil isBlanks_nil (spells_compact v h.1)
      isBlanks_nil hr
    simpa [compactMembers] using hv

end

/-- The compact text spells the value. -/
theorem Spelled.compact {j : Json} (h : j.Sound) : j.Spelled j.compact :=
  ⟨[], _, [], isBlanks_nil, spells_compact j h, isBlanks_nil, by rw [List.nil_append, List.append_nil]⟩

/-! ## The text over lines -/

theorem isBlanks_newline (depth : Nat) : IsBlanks (newline depth).toList := by
  have htext : (newline depth).toList = '\n' :: List.replicate (2 * depth) ' ' := by simp [newline]
  intro c hc
  rw [htext] at hc
  rcases List.mem_cons.mp hc with rfl | hspace
  · rfl
  · rw [(List.mem_replicate.mp hspace).2]
    rfl

theorem isBlanks_space : IsBlanks [' '] := fun _ hc => List.mem_singleton.mp hc ▸ rfl

mutual

theorem spells_prettyAt : ∀ (j : Json) (depth : Nat), j.Sound → Spells (.value j) (prettyAt depth j).toList
  | .null, _, _ => by simpa [prettyAt] using Spells.null
  | .bool true, _, _ => by simpa [prettyAt] using Spells.isTrue
  | .bool false, _, _ => by simpa [prettyAt] using Spells.isFalse
  | .number _, _, h => by simpa [prettyAt] using Spells.number h
  | .string s, _, _ => by simpa [prettyAt] using Spells.string s
  | .array [], _, _ => by simpa [prettyAt] using Spells.noItems isBlanks_nil
  | .array (v :: r), depth, h => by
    have hitems := Spells.array (spells_prettyItems (v :: r) (depth + 1) (List.cons_ne_nil v r) h
      (isBlanks_newline depth))
    simpa [prettyAt] using hitems
  | .object [], _, _ => by simpa [prettyAt] using Spells.noMembers isBlanks_nil
  | .object (m :: r), depth, h => by
    have hmembers := Spells.object (spells_prettyMembers (m :: r) (depth + 1) (List.cons_ne_nil m r) h
      (isBlanks_newline depth))
    simpa [prettyAt] using hmembers

/-- The blanks behind the last item are those of the line that closes the array. -/
theorem spells_prettyItems : ∀ (js : List Json) (depth : Nat), js ≠ [] → SoundItems js → ∀ {b}, IsBlanks b →
    Spells (.items js) ((prettyItems depth js).toList ++ b)
  | [], _, hne, _, _, _ => absurd rfl hne
  | [v], depth, _, h, _, hb => by
    have hv := Spells.lastItem (isBlanks_newline depth) (spells_prettyAt v depth h.1) hb
    simpa [prettyItems] using hv
  | v :: w :: r, depth, _, h, _, hb => by
    have hr := spells_prettyItems (w :: r) depth (List.cons_ne_nil w r) h.2 hb
    have hv := Spells.item (isBlanks_newline depth) (spells_prettyAt v depth h.1) isBlanks_nil hr
    simpa [prettyItems] using hv

theorem spells_prettyMembers : ∀ (ms : List (Option String × Json)) (depth : Nat), ms ≠ [] →
    SoundMembers ms → ∀ {b}, IsBlanks b → Spells (.members ms) ((prettyMembers depth ms).toList ++ b)
  | [], _, hne, _, _, _ => absurd rfl hne
  | [(k, v)], depth, _, h, _, hb => by
    have hv := Spells.lastMember (k := k) (isBlanks_newline depth) isBlanks_nil isBlanks_space
      (spells_prettyAt v depth h.1) hb
    simpa [prettyMembers] using hv
  | (k, v) :: n :: r, depth, _, h, _, hb => by
    have hr := spells_prettyMembers (n :: r) depth (List.cons_ne_nil n r) h.2 hb
    have hv := Spells.member (k := k) (isBlanks_newline depth) isBlanks_nil isBlanks_space
      (spells_prettyAt v depth h.1) isBlanks_nil hr
    simpa [prettyMembers] using hv

end

/-- So does the text that is laid out over lines. -/
theorem Spelled.pretty {j : Json} (h : j.Sound) : j.Spelled j.pretty :=
  ⟨[], _, [], isBlanks_nil, spells_prettyAt j 0 h, isBlanks_nil, by
    rw [List.nil_append, List.append_nil]
    rfl⟩

end Cutscene.Json
