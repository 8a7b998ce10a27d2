import Mathlib.Data.List.Forall2
import Mathlib.Data.List.Nodup
import Mathlib.Data.List.Perm.Basic
import Cutscene.Json.Number
import Cutscene.Json.Record

/-!
# Records in any order

The members of an object may stand in any order, and so may those of the objects within it. What is read
of a record by the names of its fields does not depend on it.

Results:
* `Reordered`: the same value with the members of its objects in other orders.
* `Reordered.record?`: the fields that are found in a record, whatever their order.
* `Fields.Holds.required?`, `Fields.Holds.orElse?_filter`, `Fields.Holds.orElse?_none`: what is read of them.
* `record?_of_misnamed`: an object with another member than the fields, or with one of them twice, is no
  record, if such members are refused.
-/

namespace Cutscene.Json

/-! ## Orders of members -/

/-- Members of one key whose values are related. -/
inductive SameKey (r : Json → Json → Prop) : Option String × Json → Option String × Json → Prop
  | mk (k) {v v'} (h : r v v') : SameKey r (k, v) (k, v')

/-- The same value, with the members of its objects in other orders. -/
inductive Reordered : Json → Json → Prop
  | same (j) : Reordered j j
  | array {js js'} (h : List.Forall₂ Reordered js js') : Reordered (.array js) (.array js')
  | object {ms ms' ms''} (h : List.Forall₂ (SameKey Reordered) ms ms') (hperm : ms'.Perm ms'') :
      Reordered (.object ms) (.object ms'')

/-- Members of the same keys with the same values, but for their order. -/
structure SameMembers (ms ms' : List (Option String × Json)) : Prop where
  keys : (ms'.map Prod.fst).Perm (ms.map Prod.fst)
  into : ∀ k v, (k, v) ∈ ms → ∃ v', (k, v') ∈ ms' ∧ Reordered v v'
  back : ∀ k v', (k, v') ∈ ms' → ∃ v, (k, v) ∈ ms ∧ Reordered v v'

theorem SameMembers.refl (ms : List (Option String × Json)) : SameMembers ms ms :=
  ⟨.refl _, fun _ v h => ⟨v, h, .same v⟩, fun _ v h => ⟨v, h, .same v⟩⟩

theorem SameMembers.of_forall₂ {ms ms' : List (Option String × Json)}
    (h : List.Forall₂ (SameKey Reordered) ms ms') : SameMembers ms ms' := by
  induction h with
  | nil => exact .refl []
  | cons hm _ ih =>
    obtain ⟨k, hv⟩ := hm
    rename_i v v'
    refine ⟨ih.keys.cons k, fun k₁ w hw => ?_, fun k₁ w hw => ?_⟩
    · rcases List.mem_cons.mp hw with hw | hw
      · cases hw
        exact ⟨v', List.mem_cons_self, hv⟩
      · obtain ⟨w', hw', hr⟩ := ih.into k₁ w hw
        exact ⟨w', List.mem_cons_of_mem _ hw', hr⟩
    · rcases List.mem_cons.mp hw with hw | hw
      · cases hw
        exact ⟨v, List.mem_cons_self, hv⟩
      · obtain ⟨w', hw', hr⟩ := ih.back k₁ w hw
        exact ⟨w', List.mem_cons_of_mem _ hw', hr⟩

/-- An object in another order is an object of the same members. -/
theorem Reordered.sameMembers {ms : List (Option String × Json)} {j : Json} (h : Reordered (.object ms) j) :
    ∃ ms', j = .object ms' ∧ SameMembers ms ms' := by
  cases h with
  | same => exact ⟨ms, rfl, .refl ms⟩
  | object h hperm =>
    have hmid := SameMembers.of_forall₂ h
    refine ⟨_, rfl, (hperm.map _).symm.trans hmid.keys, fun k v hv => ?_, fun k v' hv' => ?_⟩
    · obtain ⟨v', hv', hr⟩ := hmid.into k v hv
      exact ⟨v', hperm.mem_iff.mp hv', hr⟩
    · exact hmid.back k v' (hperm.mem_iff.mpr hv')

theorem Reordered.of_single {k : Option String} {v : Json} {j : Json} (h : Reordered (.object [(k, v)]) j) :
    ∃ v', j = .object [(k, v')] ∧ Reordered v v' := by
  obtain ⟨ms', rfl, hms⟩ := h.sameMembers
  have hlength : ms'.length = 1 := (List.length_map Prod.fst).symm.trans hms.keys.length_eq
  obtain ⟨⟨k', v'⟩, rfl⟩ := List.length_eq_one_iff.mp hlength
  obtain ⟨w, hw, hr⟩ := hms.back k' v' List.mem_cons_self
  cases List.mem_singleton.mp hw
  exact ⟨v', rfl, hr⟩

/-- A value that is neither an array nor an object. -/
def isFlat : Json → Bool
  | .array _ => false
  | .object _ => false
  | _ => true

theorem Reordered.eq_of_isFlat {j j' : Json} (h : Reordered j j') (hflat : j.isFlat) : j' = j := by
  cases h with
  | same => rfl
  | _ => cases hflat

/-! ## Records -/

/-- The member of a field. -/
def member (f : String × Json) : Option String × Json := (some f.1, f.2)

theorem record_eq (fields : List (String × Json)) : record fields = .object (fields.map member) := rfl

theorem named?_map_member (fields : List (String × Json)) : named? (fields.map member) = some fields := by
  induction fields with
  | nil => rfl
  | cons f r ih => rw [List.map_cons, member, named?, ih, Option.map_some]

theorem eq_of_named? {ms : List (Option String × Json)} {fields : List (String × Json)}
    (h : named? ms = some fields) : ms = fields.map member := by
  induction ms generalizing fields with
  | nil =>
    cases h
    rfl
  | cons m ms ih =>
    obtain ⟨k, v⟩ := m
    cases k with
    | none => cases h
    | some k =>
      obtain ⟨r, hr, rfl⟩ := Option.map_eq_some_iff.mp h
      rw [List.map_cons, ← ih hr]
      rfl

theorem exists_fields {ms : List (Option String × Json)} (h : ∀ m ∈ ms, m.1.isSome) :
    ∃ fields, ms = List.map member fields := by
  induction ms with
  | nil => exact ⟨[], rfl⟩
  | cons m ms ih =>
    obtain ⟨r, rfl⟩ := ih fun m' hm' => h m' (List.mem_cons_of_mem _ hm')
    obtain ⟨k, hk⟩ := Option.isSome_iff_exists.mp (h m List.mem_cons_self)
    exact ⟨(k, m.2) :: r, by rw [List.map_cons, member, ← hk]⟩

theorem lookup_of_mem {fields : List (String × Json)} (h : (fields.map Prod.fst).Nodup) {name : String}
    {v : Json} (hmem : (name, v) ∈ fields) : fields.lookup name = some v := by
  induction fields with
  | nil => exact absurd hmem List.not_mem_nil
  | cons f r ih =>
    obtain ⟨k, w⟩ := f
    rw [List.map_cons, List.nodup_cons] at h
    rcases List.mem_cons.mp hmem with hhead | htail
    · cases hhead
      exact List.lookup_cons_self
    · have hne : name ≠ k := fun hk => h.1 (List.mem_map.mpr ⟨_, htail, hk⟩)
      rw [List.lookup_cons, beq_false_of_ne hne]
      exact ih h.2 htail

/-- Fields of the same names with the same values, but for their order. -/
structure SameFields (fields fields' : List (String × Json)) : Prop where
  names : (fields'.map Prod.fst).Perm (fields.map Prod.fst)
  into : ∀ name v, (name, v) ∈ fields → ∃ v', (name, v') ∈ fields' ∧ Reordered v v'
  back : ∀ name v', (name, v') ∈ fields' → ∃ v, (name, v) ∈ fields ∧ Reordered v v'

theorem mem_map_member_iff {fields : List (String × Json)} {name : String} {v : Json} :
    (some name, v) ∈ fields.map member ↔ (name, v) ∈ fields := by
  constructor
  · intro h
    obtain ⟨f, hf, hmember⟩ := List.mem_map.mp h
    cases hmember
    exact hf
  · exact fun h => List.mem_map.mpr ⟨_, h, rfl⟩

/-- A record in another order is a record of the same fields. -/
theorem Reordered.sameFields {fields : List (String × Json)} {j : Json} (h : Reordered (record fields) j) :
    ∃ fields', j = record fields' ∧ SameFields fields fields' := by
  obtain ⟨ms', rfl, hms⟩ := h.sameMembers
  have hsome : ∀ m ∈ ms', m.1.isSome := by
    intro m hm
    obtain ⟨v, hv, -⟩ := hms.back m.1 m.2 hm
    obtain ⟨f, -, hf⟩ := List.mem_map.mp hv
    rw [← congrArg Prod.fst hf]
    rfl
  obtain ⟨fields', rfl⟩ := exists_fields hsome
  have hnames : ((fields'.map Prod.fst).map some).Perm ((fields.map Prod.fst).map some) := by
    have hkeys := hms.keys
    rwa [List.map_map, List.map_map] at hkeys ⊢
  refine ⟨fields', rfl, (List.map_perm_map_iff fun _ _ h => Option.some.inj h).mp hnames, ?_, ?_⟩
  · intro name v hv
    obtain ⟨v', hv', hr⟩ := hms.into (some name) v (mem_map_member_iff.mpr hv)
    exact ⟨v', mem_map_member_iff.mp hv', hr⟩
  · intro name v' hv'
    obtain ⟨v, hv, hr⟩ := hms.back (some name) v' (mem_map_member_iff.mpr hv')
    exact ⟨v, mem_map_member_iff.mp hv, hr⟩

/-- What is found are these fields, with values in other orders. -/
structure Fields.Holds (fs : Fields) (fields : List (String × Json)) : Prop where
  here : ∀ name v, (name, v) ∈ fields → ∃ v', fs.values.lookup name = some v' ∧ Reordered v v'
  nowhere : ∀ name, name ∉ fields.map Prod.fst → fs.values.lookup name = none

theorem record?_record {fields : List (String × Json)} (hkeys : (fields.map Prod.fst).Nodup)
    {names : List String} (hnames : ∀ f ∈ fields, f.1 ∈ names) (unknown : Unknown) :
    (record fields).record? names unknown = some ⟨fields⟩ := by
  have hknown : (fields.filter fun f => names.contains f.1) = fields :=
    List.filter_eq_self.mpr fun f hf => List.contains_iff_mem.mpr (hnames f hf)
  rw [record_eq, Json.record?, named?_map_member]
  simp only [Option.bind_eq_bind, Option.bind_some, hknown, ne_eq, not_true_eq_false, and_false, if_false,
    if_pos hkeys]

/-- The fields of a record are found, whatever their order. -/
theorem Reordered.record? {fields : List (String × Json)} {j : Json} (h : Reordered (record fields) j)
    {names : List String} (hnames : names.Nodup) (hfields : (fields.map Prod.fst).Sublist names)
    (unknown : Unknown) : ∃ fs, j.record? names unknown = some fs ∧ fs.Holds fields := by
  obtain ⟨fields', rfl, hsame⟩ := h.sameFields
  have hkeys : (fields'.map Prod.fst).Nodup := hsame.names.nodup_iff.mpr (hnames.sublist hfields)
  refine ⟨⟨fields'⟩, record?_record hkeys ?_ unknown, ?_, ?_⟩
  · exact fun f hf => hfields.subset (hsame.names.mem_iff.mp (List.mem_map_of_mem hf))
  · intro name v hv
    obtain ⟨v', hv', hr⟩ := hsame.into name v hv
    exact ⟨v', lookup_of_mem hkeys hv', hr⟩
  · intro name hname
    refine List.lookup_eq_none_iff.mpr fun f hf => bne_iff_ne.mpr ?_
    rintro rfl
    exact hname (hsame.names.mem_iff.mp (List.mem_map_of_mem hf))

/-- A value is read as this, whatever the order of its members. -/
def Reads {α : Type} (read : Json → Option α) (v : Json) (a : α) : Prop :=
  ∀ v', Reordered v v' → read v' = some a

section Found

variable {α : Type} {fs : Fields} {fields : List (String × Json)} {name : String} {v : Json}
  {read : Json → Option α} {a : α}

theorem Fields.Holds.required? (h : fs.Holds fields) (hmem : (name, v) ∈ fields) (hread : Reads read v a) :
    fs.required? name read = some a := by
  obtain ⟨v', hv', hr⟩ := h.here name v hmem
  unfold Fields.required?
  rw [hv', Option.bind_some, hread v' hr]

/-- The default stands for a field that is not among those that are written. -/
theorem Fields.Holds.orElse?_filter {keep : String → Bool} (h : fs.Holds (fields.filter fun f => keep f.1))
    (i : Nat) (hi : fields[i]? = some (name, v)) (hread : keep name → Reads read v a) (d : α) :
    fs.orElse? name d read = some (if keep name then a else d) := by
  have hmem := List.mem_of_getElem? hi
  unfold Fields.orElse?
  by_cases hkeep : keep name
  · obtain ⟨v', hv', hr⟩ := h.here name v (List.mem_filter.mpr ⟨hmem, hkeep⟩)
    rw [hv', if_pos hkeep]
    exact hread hkeep v' hr
  · have hnone : name ∉ (fields.filter fun f => keep f.1).map Prod.fst := by
      intro hin
      obtain ⟨f, hf, rfl⟩ := List.mem_map.mp hin
      exact hkeep (List.mem_filter.mp hf).2
    rw [h.nowhere name hnone, if_neg hkeep]

/-- A field that is written just if there is a value for it. -/
theorem Fields.Holds.orElse?_none {write : α → Json} {o : Option α} {read : Json → Option (Option α)}
    (h : fs.Holds fields) (hfield : ∀ v, (name, v) ∈ fields ↔ ∃ a, o = some a ∧ v = write a)
    (hread : ∀ a, o = some a → Reads read (write a) (some a)) : fs.orElse? name none read = some o := by
  unfold Fields.orElse?
  cases o with
  | none =>
    have hnone : name ∉ fields.map Prod.fst := by
      intro hin
      obtain ⟨f, hf, rfl⟩ := List.mem_map.mp hin
      obtain ⟨a, ha, -⟩ := (hfield f.2).mp hf
      cases ha
    rw [h.nowhere name hnone]
  | some a =>
    obtain ⟨v', hv', hr⟩ := h.here name (write a) ((hfield _).mpr ⟨a, rfl, rfl⟩)
    rw [hv']
    exact hread a rfl v' hr

end Found

/-! ## Values -/

theorem isFlat_float (x : Float) : (float x).isFlat := by
  unfold float
  split_ifs <;> rfl

theorem isFlat_float32 (x : Float32) : (float32 x).isFlat := by
  unfold float32
  split_ifs <;> rfl

theorem reads_flat {α : Type} {read : Json → Option α} {v : Json} {a : α} (hflat : v.isFlat)
    (h : read v = some a) : Reads read v a :=
  fun _ hv => hv.eq_of_isFlat hflat ▸ h

/-- What is read of a value that is not `null`, where `null` is missing. -/
theorem nullable?_eq {α : Type} {read : Json → Option α} {v : Json} {a : α} (h : read v = some a)
    (hnull : v ≠ .null) : nullable? read v = some (some a) := by
  cases v with
  | null => exact absurd rfl hnull
  | _ => rw [nullable?, h, Option.map_some]; exact hnull

theorem reads_text (s : String) : Reads text? (text s) s := reads_flat rfl rfl

theorem reads_optional (s : Option String) : Reads (nullable? text?) (optional text s) s := by
  cases s with
  | none => exact reads_flat rfl rfl
  | some s => exact reads_flat rfl rfl

/-- A list is read as this, if each of its members is. -/
theorem reads_list_of_forall {α : Type} {read : Json → Option α} {write : α → Json} {l : List α}
    (h : ∀ a ∈ l, Reads read (write a) a) : Reads (list? read) (.array (l.map write)) l := by
  have hmapM : ∀ js, List.Forall₂ Reordered (l.map write) js → js.mapM read = some l := by
    intro js hjs
    rw [List.forall₂_map_left_iff] at hjs
    induction hjs with
    | nil => rfl
    | cons hj _ ih =>
      rw [List.mapM_cons, h _ List.mem_cons_self _ hj, ih fun a ha => h a (List.mem_cons_of_mem _ ha)]
      rfl
  intro j hj
  cases hj with
  | same => exact hmapM _ (List.forall₂_same.mpr fun v _ => .same v)
  | array hjs => exact hmapM _ hjs

theorem reads_list {α : Type} {read : Json → Option α} {write : α → Json} (h : ∀ a, Reads read (write a) a)
    (l : List α) : Reads (list? read) (.array (l.map write)) l :=
  reads_list_of_forall fun a _ => h a

/-! ## What is no record -/

/-- Members with a key that is none of the names, or with one key twice. -/
def Misnamed (names : List String) (ms : List (Option String × Json)) : Prop :=
  (∃ m ∈ ms, ∀ name ∈ names, m.1 ≠ some name) ∨ ¬(ms.map Prod.fst).Nodup

/-- An object of which nothing may be left out consists of the fields that are found, each of them once. -/
theorem record?_object {names : List String} {ms : List (Option String × Json)} {fs : Fields}
    (h : (Json.object ms).record? names .refused = some fs) :
    ms = fs.values.map member ∧ (fs.values.map Prod.fst).Nodup ∧ ∀ f ∈ fs.values, f.1 ∈ names := by
  rw [Json.record?] at h
  obtain ⟨fields, hnamed, h⟩ := Option.bind_eq_some_iff.mp h
  simp only [true_and] at h
  split_ifs at h with hlength hnodup
  cases h
  have hknown : (fields.filter fun f => names.contains f.1) = fields :=
    List.filter_sublist.eq_of_length (Decidable.not_not.mp hlength)
  rw [hknown] at hnodup ⊢
  exact ⟨eq_of_named? hnamed, hnodup, fun f hf =>
    List.contains_iff_mem.mp (List.filter_eq_self.mp hknown f hf)⟩

theorem record?_of_misnamed {names : List String} {ms : List (Option String × Json)} (h : Misnamed names ms) :
    (Json.object ms).record? names .refused = none := by
  cases hrecord : (Json.object ms).record? names .refused with
  | none => rfl
  | some fs =>
    obtain ⟨rfl, hnodup, hnames⟩ := record?_object hrecord
    rcases h with ⟨m, hm, hunknown⟩ | htwice
    · obtain ⟨f, hf, rfl⟩ := List.mem_map.mp hm
      exact absurd rfl (hunknown f.1 (hnames f hf))
    · have hkeys : ((fs.values.map Prod.fst).map some).Nodup := hnodup.map fun _ _ h => Option.some.inj h
      rw [List.map_map] at hkeys htwice
      exact absurd hkeys htwice

/-! ## Parts of an object -/

/-- The members of an object that are to be kept. -/
def pick (keep : String → Bool) : Json → Json
  | .object ms => .object (ms.filter fun m => m.1.any keep)
  | j => j

/-- An object with a change made to the value of one key. -/
def adjust (name : String) (f : Json → Json) : Json → Json
  | .object ms => .object (ms.map fun m => (m.1, if m.1 = some name then f m.2 else m.2))
  | j => j

theorem pick_record (keep : String → Bool) (fields : List (String × Json)) :
    (record fields).pick keep = record (fields.filter fun f => keep f.1) := by
  rw [record_eq, record_eq, pick, List.filter_map]
  rfl

theorem pick_record_true (fields : List (String × Json)) :
    (record fields).pick (fun _ => true) = record fields := by
  rw [pick_record, List.filter_true]

/-- Of a record that is written in part, the fields that are kept are found. -/
theorem Reordered.record?_pick {keep : String → Bool} {fields : List (String × Json)} {j : Json}
    (h : Reordered ((record fields).pick keep) j) {names : List String} (hnodup : names.Nodup)
    (hnames : fields.map Prod.fst = names) (unknown : Unknown) :
    ∃ fs, j.record? names unknown = some fs ∧ fs.Holds (fields.filter fun f => keep f.1) := by
  rw [pick_record] at h
  exact h.record? hnodup (hnames ▸ List.filter_sublist.map Prod.fst) unknown

theorem adjust_record (name : String) (f : Json → Json) (fields : List (String × Json)) :
    (record fields).adjust name f =
      record (fields.map fun g => (g.1, if g.1 = name then f g.2 else g.2)) := by
  rw [record_eq, record_eq, adjust, List.map_map, List.map_map]
  simp [Function.comp_def, member]

end Cutscene.Json
