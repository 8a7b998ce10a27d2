import Cutscene.Proofs.Json.Record
import Cutscene.Proofs.Json.Spelling
import Cutscene.Proofs.Sound.Channels

/-!
# Written logs

A log is written for a mixer that sees nothing but the text: an object for each entry, without the members
that the entry has no value for. What is left out is read as missing, so the entries are read back whatever
their paths are made of.

On `AudioLog.to_json_string`: the schema of SPEC_FULL.md, §6.

Results:
* `mem_fields_end`, `mem_fields_loopDelay`, `mem_fields_loopType`: the fields that may be left out.
* `SoundEntry.reads`: an entry is read as it was written.
* `SoundEntry.sound_toJson`, `SoundEntry.writtenAs`: what is written for it.
* `SoundLog.log_read_back`: the text of a log, and what is read of it.
-/

namespace Cutscene

open Json

namespace SoundEntry

/-! ## What is written for an entry -/

/-- The numbers of an entry. -/
def numbers (e : SoundEntry Float) : List Float := e.offset :: (e.stop.toList ++ e.loopDelay.toList)

/-- The fields that are written for an entry. -/
def fields (e : SoundEntry Float) : List (String × Json) :=
  [("type", .text e.kind), ("path", .text e.path), ("offset", .float e.offset)] ++
    member "end" Json.float e.stop ++ member "loop_delay" Json.float e.loopDelay ++
    member "loop_type" Repetition.toJson e.repetition

/-- The names of the fields that are written for an entry. -/
def keys (e : SoundEntry Float) : List String :=
  ["type", "path", "offset"] ++ (e.stop.map fun _ => "end").toList ++
    (e.loopDelay.map fun _ => "loop_delay").toList ++ (e.repetition.map fun _ => "loop_type").toList

theorem toJson_eq (e : SoundEntry Float) : e.toJson = record e.fields := rfl

theorem mem_member_iff {α : Type} {name key : String} {write : α → Json} {o : Option α} {v : Json} :
    (key, v) ∈ member name write o ↔ key = name ∧ ∃ a, o = some a ∧ v = write a := by
  cases o <;> simp [member]

variable (e : SoundEntry Float)

theorem mem_fields_end (v : Json) : ("end", v) ∈ e.fields ↔ ∃ t, e.stop = some t ∧ v = .float t := by
  simp [fields, mem_member_iff]

theorem mem_fields_loopDelay (v : Json) :
    ("loop_delay", v) ∈ e.fields ↔ ∃ t, e.loopDelay = some t ∧ v = .float t := by
  simp [fields, mem_member_iff]

theorem mem_fields_loopType (v : Json) :
    ("loop_type", v) ∈ e.fields ↔ ∃ r, e.repetition = some r ∧ v = r.toJson := by
  simp [fields, mem_member_iff]

theorem map_fst_fields : e.fields.map Prod.fst = e.keys := by
  have hmember : ∀ {α : Type} (name : String) (write : α → Json) (o : Option α),
      (member name write o).map Prod.fst = (o.map fun _ => name).toList := by
    intro α name write o
    cases o <;> rfl
  simp only [fields, keys, List.map_append, hmember]
  rfl

theorem keys_sublist : e.keys.Sublist ["type", "path", "offset", "end", "loop_delay", "loop_type"] := by
  have hpart : ∀ {α : Type} (name : String) (o : Option α), (o.map fun _ => name).toList.Sublist [name] := by
    intro α name o
    cases o <;> simp
  exact (((List.Sublist.refl ["type", "path", "offset"]).append (hpart _ _)).append (hpart _ _)).append
    (hpart _ _)

/-! ## What is read of it -/

/-- The numbers of an entry are ordinary numbers. -/
def IsFinite (e : SoundEntry Float) : Prop := ∀ x ∈ e.numbers, x.isFinite = true

theorem float_of_isFinite {x : Float} (h : x.isFinite = true) : float x = .number (Layout.json.text x) := if_pos h

theorem reads_repetition (r : Repetition) :
    Reads (nullable? Repetition.ofJson?) r.toJson (some r) := by
  cases r <;> exact reads_flat rfl rfl

theorem sound_toJson : e.toJson.Sound := by
  have hmember : ∀ {α : Type} {name : String} {write : α → Json} {o : Option α}, (∀ a, (write a).Sound) →
      ∀ f ∈ member name write o, f.2.Sound := by
    rintro α name write o hwrite ⟨key, v⟩ hf
    obtain ⟨-, a, -, rfl⟩ := mem_member_iff.mp hf
    exact hwrite a
  rw [toJson_eq, sound_record]
  refine List.forall_mem_append.mpr ⟨List.forall_mem_append.mpr ⟨List.forall_mem_append.mpr ⟨?_, ?_⟩, ?_⟩, ?_⟩
  · simp [sound_text, sound_float]
  · exact hmember sound_float
  · exact hmember sound_float
  · exact hmember fun r => sound_text r.name

variable {e}

/-- An entry is read back if its numbers are. -/
theorem reads (h : ∀ x ∈ e.numbers, float? (float x) = some x) :
    Reads SoundEntry.ofJson? e.toJson e := by
  have hread : ∀ x ∈ e.numbers,
      Reads float? (float x) x ∧ Reads (nullable? float?) (float x) (some x) := by
    intro x hx
    have hback := h x hx
    have hnull : float x ≠ .null := by
      intro hnull
      rw [hnull] at hback
      cases hback
    exact ⟨reads_flat (isFlat_float x) hback, reads_flat (isFlat_float x) (nullable?_eq hback hnull)⟩
  intro j hj
  rw [toJson_eq] at hj
  obtain ⟨fs, hfs, hholds⟩ := hj.record? (by decide) (e.map_fst_fields ▸ e.keys_sublist) .ignored
  have hkind : fs.required? "type" text? = some e.kind := hholds.required? (by simp [fields]) (reads_text _)
  have hpath : fs.required? "path" text? = some e.path := hholds.required? (by simp [fields]) (reads_text _)
  have hoffset : fs.required? "offset" float? = some e.offset :=
    hholds.required? (by simp [fields]) (hread _ (by simp [numbers])).1
  have hstop : fs.orElse? "end" none (nullable? float?) = some e.stop :=
    hholds.orElse?_none e.mem_fields_end fun t ht => (hread t (by simp [numbers, ht])).2
  have hdelay : fs.orElse? "loop_delay" none (nullable? float?) = some e.loopDelay :=
    hholds.orElse?_none e.mem_fields_loopDelay fun t ht => (hread t (by simp [numbers, ht])).2
  have hrepetition : fs.orElse? "loop_type" none (nullable? Repetition.ofJson?) = some e.repetition :=
    hholds.orElse?_none e.mem_fields_loopType fun r _ => reads_repetition r
  simp [ofJson?, hfs, hkind, hpath, hoffset, hstop, hdelay, hrepetition]

/-! ## The text of an entry -/

/-- The object that is written for an entry. -/
structure WrittenAs (e : SoundEntry Float) (ms : List (Option String × Json)) : Prop where
  /-- Its members: three always, and one for each thing more that the entry has a value for. -/
  keys : ms.map Prod.fst = e.keys.map some
  kind : (some "type", .text "audio") ∈ ms
  path : (some "path", .text e.path) ∈ ms
  offset : (some "offset", .number (Layout.json.text e.offset)) ∈ ms
  stop_iff : ∀ v, (some "end", v) ∈ ms ↔ ∃ t, e.stop = some t ∧ v = .number (Layout.json.text t)
  loopDelay_iff : ∀ v,
    (some "loop_delay", v) ∈ ms ↔ ∃ t, e.loopDelay = some t ∧ v = .number (Layout.json.text t)
  repetition_iff : ∀ v, (some "loop_type", v) ∈ ms ↔ ∃ r, e.repetition = some r ∧ v = .text r.name

theorem writtenAs (hkind : e.kind = "audio") (hfinite : e.IsFinite) : e.WrittenAs (e.fields.map Json.member) := by
  have hnumber : ∀ {o : Option Float} (v : Json), (∀ t, o = some t → t ∈ e.numbers) →
      ((∃ t, o = some t ∧ v = .float t) ↔ ∃ t, o = some t ∧ v = .number (Layout.json.text t)) := by
    intro o v ho
    refine exists_congr fun t => and_congr_right fun ht => ?_
    rw [float_of_isFinite (hfinite t (ho t ht))]
  constructor
  · rw [List.map_map, ← e.map_fst_fields, List.map_map]
    rfl
  · exact mem_map_member_iff.mpr (by simp [fields, hkind])
  · exact mem_map_member_iff.mpr (by simp [fields])
  · rw [mem_map_member_iff, ← float_of_isFinite (hfinite e.offset (by simp [numbers]))]
    simp [fields]
  · intro v
    rw [mem_map_member_iff, mem_fields_end, hnumber v fun t ht => by simp [numbers, ht]]
  · intro v
    rw [mem_map_member_iff, mem_fields_loopDelay, hnumber v fun t ht => by simp [numbers, ht]]
  · exact fun v => mem_map_member_iff.trans (e.mem_fields_loopType v)

end SoundEntry

/-! ## The text of a log -/

/-- The numbers of an event are ordinary numbers. -/
def SoundEvent.IsFinite : SoundEvent Float → Prop
  | play _ offset => offset.isFinite = true
  | start _ _ offset loopDelay _ => offset.isFinite = true ∧ ∀ delay ∈ loopDelay, delay.isFinite = true
  | stop _ time => time.isFinite = true
  | closeAll time => time.isFinite = true

theorem SoundEvent.IsFinite.made {ev : SoundEvent Float} (h : ev.IsFinite) :
    ∀ m ∈ ev.made, m.1.kind = "audio" ∧ m.1.IsFinite := by
  cases ev with
  | play path offset =>
    exact List.forall_mem_singleton.mpr ⟨rfl, List.forall_mem_singleton.mpr h⟩
  | start c path offset loopDelay repetition =>
    refine List.forall_mem_singleton.mpr ⟨rfl, List.forall_mem_cons.mpr ⟨h.1, fun delay hdelay => ?_⟩⟩
    exact h.2 delay (Option.mem_toList.mp hdelay)
  | stop c time => exact fun m hm => absurd hm List.not_mem_nil
  | closeAll time => exact fun m hm => absurd hm List.not_mem_nil

theorem SoundEvent.IsFinite.ends {ev : SoundEvent Float} (h : ev.IsFinite) :
    ∀ t ∈ ev.ends?, t.isFinite = true := by
  rintro t ht
  cases ev <;> cases ht
  · exact h.1
  · exact h
  · exact h

theorem SoundEntry.IsFinite.stop {e : SoundEntry Float} (h : e.IsFinite) {t : Float} (ht : t.isFinite = true) :
    { e with stop := some t }.IsFinite := by
  refine List.forall_mem_cons.mpr ⟨h e.offset List.mem_cons_self, List.forall_mem_cons.mpr ⟨ht, ?_⟩⟩
  exact fun x hx => h x (List.mem_cons_of_mem _ (List.mem_append_right _ hx))

namespace SoundLog

/-- The entries that a text is read as. -/
def entriesOfText? (s : String) : Option (List (SoundEntry Float)) :=
  (Json.ofText? s).bind (list? SoundEntry.ofJson?)

variable {es : List (SoundEvent Float)}

theorem finite_log (h : ∀ ev ∈ es, ev.IsFinite) : ∀ e ∈ (log es).entries, e.kind = "audio" ∧ e.IsFinite :=
  forall_log (fun ev hev => (h ev hev).made) fun ev hev t ht _ he => ⟨he.1, he.2.stop ((h ev hev).ends t ht)⟩

theorem loopDelay_log {R : Type} (es : List (SoundEvent R)) :
    ∀ e ∈ (log es).entries, e.repetition = none → e.loopDelay = none := by
  refine forall_log (fun ev _ => ?_) fun _ _ _ _ _ he => he
  cases ev with
  | play path offset => exact List.forall_mem_singleton.mpr fun _ => rfl
  | start c path offset loopDelay repetition => exact List.forall_mem_singleton.mpr nofun
  | stop c time => exact fun m hm => absurd hm List.not_mem_nil
  | closeAll time => exact fun m hm => absurd hm List.not_mem_nil

/-- What the text of the log after some events says, and what is read of it. -/
structure ReadBack (es : List (SoundEvent Float)) : Prop where
  /-- The text is an array with an object for each entry, in order. -/
  spelled : ∃ members : List (List (Option String × Json)),
    (Json.array (members.map .object)).Spelled (log es).text ∧
    List.Forall₂ SoundEntry.WrittenAs (log es).entries members
  /-- For a clip that is played once nothing is written but what is written for every entry. -/
  clip : ∀ i e, (log es).Listed (channels es) i e none → e.keys = ["type", "path", "offset"]
  /-- If numbers are read back from their text, so are the entries. -/
  read_back : (∀ e ∈ (log es).entries, ∀ x ∈ e.numbers, float? (float x) = some x) →
    entriesOfText? (log es).text = some (log es).entries

theorem spelled_text (l : SoundLog Float) : (Json.array (l.entries.map SoundEntry.toJson)).Spelled l.text :=
  .pretty (soundItems_iff.mpr (List.forall_mem_map.mpr fun e _ => e.sound_toJson))

/-- **A log is read back from its text**, whatever paths it has been asked to play. -/
theorem log_read_back (h : ∀ ev ∈ es, ev.IsFinite) : ReadBack es where
  spelled := by
    refine ⟨(log es).entries.map fun e => e.fields.map Json.member, ?_, ?_⟩
    · rw [List.map_map]
      exact (log es).spelled_text
    · refine List.forall₂_map_right_iff.mpr (List.forall₂_same.mpr fun e he => ?_)
      exact SoundEntry.writtenAs (finite_log h e he).1 (finite_log h e he).2
  clip i e he := by
    have hlaw := channelLaw es
    have hstop := hlaw.clip i e he
    have hrepetition : e.repetition = none := by
      rw [← Option.isNone_iff_eq_none, ← Option.not_isSome, hlaw.loop i e none he]
      rfl
    have hdelay := loopDelay_log es e (List.mem_of_getElem? he.entry) hrepetition
    rw [SoundEntry.keys, hstop, hdelay, hrepetition]
    rfl
  read_back hnumbers := by
    rw [entriesOfText?, (log es).spelled_text.ofText?, Option.bind_some]
    exact reads_list_of_forall (fun e he => SoundEntry.reads (hnumbers e he)) _ (.same _)

/-- A tune that is stopped, and a clip. -/
def briefTune : List (SoundEvent Float) :=
  [.start .music "a \"b\"\n.ogg" 0.5 (some 0.25) .completeOnly, .play "c.wav" 1, .stop .music 2.5]

/-- The path of the tune has quotes and a line break; the clip is written without an end. -/
theorem log_read_back_tune : (∀ ev ∈ briefTune, ev.IsFinite) ∧ ReadBack briefTune ∧
    (log briefTune).text = "\n".intercalate
      ["[",
        "  \x7b",
        "    \"type\": \"audio\",",
        "    \"path\": \"a \\\"b\\\"\\n.ogg\",",
        "    \"offset\": 0.5,",
        "    \"end\": 2.5,",
        "    \"loop_delay\": 0.25,",
        "    \"loop_type\": \"loop_complete_only\"",
        "  \x7d,",
        "  \x7b",
        "    \"type\": \"audio\",",
        "    \"path\": \"c.wav\",",
        "    \"offset\": 1.0",
        "  \x7d",
        "]"] ∧
    entriesOfText? (log briefTune).text = some (log briefTune).entries := by
  have hfinite : ∀ ev ∈ briefTune, ev.IsFinite := by
    refine List.forall_mem_cons.mpr ⟨⟨by decide +kernel, ?_⟩, List.forall_mem_cons.mpr ⟨?_, ?_⟩⟩
    · rintro _ ⟨⟩
      decide +kernel
    · exact (by decide +kernel : Float.isFinite 1 = true)
    · exact List.forall_mem_singleton.mpr (by decide +kernel : Float.isFinite 2.5 = true)
  have hread : ∀ x ∈ [(0.5 : Float), 2.5, 0.25, 1], float? (float x) = some x := by decide +kernel
  have hback := log_read_back hfinite
  refine ⟨hfinite, hback, by decide +kernel, hback.read_back fun e he x hx => hread x ?_⟩
  have hnumbers : (log briefTune).entries.map SoundEntry.numbers = [[0.5, 2.5, 0.25], [1]] := by decide +kernel
  have hmem : x ∈ ((log briefTune).entries.map SoundEntry.numbers).flatten :=
    List.mem_flatten.mpr ⟨_, List.mem_map_of_mem he, hx⟩
  rw [hnumbers] at hmem
  exact hmem

end SoundLog

end Cutscene
