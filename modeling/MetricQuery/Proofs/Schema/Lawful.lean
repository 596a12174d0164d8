import MetricQuery.Proofs.Schema.Container
import MetricQuery.Schema.Library

/-!
# What is assumed of validation libraries

The answers of a library are used through the laws of `Validator.Lawful` alone: what its decoders
accept, what accepted documents stand for, and some of the problems that it reports. No law says
anything about a record in which a name stands twice, apart from labels, nor about the order of
problems. `Validator.standard` has all of them.
-/

namespace MetricQuery
namespace Schema

open Checked

variable {α β γ : Type}

/-! ### Declared fields -/

namespace Declared

/-- The declared fields and their decoders. -/
def parts : {γ : Type} → Declared γ → List (String × (Σ α : Type, Decoder α))
  | _, none => []
  | _, required name decode rest => (name, ⟨_, decode⟩) :: rest.parts
  | _, nullable name decode rest => (name, ⟨_, decode⟩) :: rest.parts

/-- The names of the fields that have to be there. -/
def needed : {γ : Type} → Declared γ → List String
  | _, none => []
  | _, required name _ rest => name :: rest.needed
  | _, nullable _ _ rest => rest.needed

/-- What the fields of a record stand for, each by its decoder. -/
def Holds : {γ : Type} → Declared γ → Json.Fields → γ → Prop
  | _, none, _, _ => True
  | _, required name decode rest, fields, c =>
    (∃ v, Json.field? fields name = some v ∧ decode v = .sound c.1) ∧ rest.Holds fields c.2
  | _, nullable name decode rest, fields, c =>
    Option.Rel (fun v a => decode v = .sound a) (Json.given? fields name) c.1 ∧
      rest.Holds fields c.2

variable {d : Declared γ} {fields : Json.Fields} {name : String} {part : Decoder α}

theorem Holds.required {v : Json} {a : α} {c : γ} (hv : Json.field? fields name = some v)
    (hread : part v = .sound a) (h : d.Holds fields c) :
    (Declared.required name part d).Holds fields (a, c) :=
  ⟨⟨v, hv, hread⟩, h⟩

theorem Holds.nullable {a? : Option α} {c : γ}
    (ha : Option.Rel (fun v a => part v = .sound a) (Json.given? fields name) a?)
    (h : d.Holds fields c) : (Declared.nullable name part d).Holds fields (a?, c) :=
  ⟨ha, h⟩

theorem name_mem_of_mem_parts (h : (name, ⟨α, part⟩) ∈ d.parts) : name ∈ d.names := by
  induction d with
  | none => cases h
  | required first decode rest ih | nullable first decode rest ih =>
    cases h with
    | head => exact List.mem_cons_self
    | tail _ h => exact List.mem_cons_of_mem _ (ih h)

theorem exists_part_of_mem_names (h : name ∈ d.names) : ∃ part ∈ d.parts, part.1 = name := by
  induction d with
  | none => cases h
  | required first decode rest ih | nullable first decode rest ih =>
    obtain rfl | h := List.mem_cons.1 h
    · exact ⟨_, List.mem_cons_self, rfl⟩
    · obtain ⟨part, hpart, rfl⟩ := ih h
      exact ⟨part, List.mem_cons_of_mem _ hpart, rfl⟩

theorem Holds.exists_field {c : γ} (h : d.Holds fields c) (hname : name ∈ d.needed) :
    ∃ v, Json.field? fields name = some v := by
  induction d with
  | none => cases hname
  | required first decode rest ih =>
    obtain ⟨⟨v, hv, -⟩, hrest⟩ := h
    obtain rfl | hname := List.mem_cons.1 hname
    · exact ⟨v, hv⟩
    · exact ih hrest hname
  | nullable first decode rest ih => exact ih h.2 hname

/-- A field that is given stands for something if the whole record does. -/
theorem Holds.exists_sound {c : γ} (h : d.Holds fields c) (hpart : (name, ⟨α, part⟩) ∈ d.parts)
    {v : Json} (hv : Json.field? fields name = some v) (hnull : v ≠ .null) :
    ∃ a, part v = .sound a := by
  induction d with
  | none => cases hpart
  | required first decode rest ih =>
    obtain ⟨⟨w, hw, hread⟩, hrest⟩ := h
    cases hpart with
    | head =>
      cases hw.symm.trans hv
      exact ⟨_, hread⟩
    | tail _ hpart => exact ih hrest hpart
  | nullable first decode rest ih =>
    obtain ⟨hfirst, hrest⟩ := h
    cases hpart with
    | head =>
      rw [Json.given?_of_field? hv hnull] at hfirst
      obtain ⟨a, -, hread⟩ := exists_of_rel_some hfirst
      exact ⟨a, hread⟩
    | tail _ hpart => exact ih hrest hpart

theorem build_eq_sound_iff {c : γ} : d.build fields = .sound c ↔ d.Holds fields c := by
  induction d with
  | none => exact ⟨fun _ => trivial, fun _ => rfl⟩
  | required name decode rest ih =>
    simp only [build, Holds, seq_eq_sound_iff, map_eq_sound_iff, ← ih, ← required_eq_sound_iff]
    constructor
    · rintro ⟨_, rest, ⟨a, ha, rfl⟩, hrest, rfl⟩
      exact ⟨ha, hrest⟩
    · rintro ⟨ha, hrest⟩
      exact ⟨_, _, ⟨_, ha, rfl⟩, hrest, rfl⟩
  | nullable name decode rest ih =>
    simp only [build, Holds, seq_eq_sound_iff, map_eq_sound_iff, ← ih,
      ← nullableField_eq_sound_iff]
    constructor
    · rintro ⟨_, rest, ⟨a, ha, rfl⟩, hrest, rfl⟩
      exact ⟨ha, hrest⟩
    · rintro ⟨ha, hrest⟩
      exact ⟨_, _, ⟨_, ha, rfl⟩, hrest, rfl⟩

theorem build_problem (hpart : (name, ⟨α, part⟩) ∈ d.parts) {v : Json}
    (hv : Json.field? fields name = some v) (hnull : v ≠ .null) {p : Problem}
    (hp : p ∈ (part v).problems) : ⟨name :: p.path, p.kind⟩ ∈ (d.build fields).problems := by
  induction d with
  | none => cases hpart
  | required first decode rest ih =>
    rw [build, problems_seq, problems_map]
    cases hpart with
    | head =>
      rw [required_of_field? hv]
      exact List.mem_append_left _ (mem_problems_under hp)
    | tail _ hpart => exact List.mem_append_right _ (ih hpart)
  | nullable first decode rest ih =>
    rw [build, problems_seq, problems_map]
    cases hpart with
    | head =>
      rw [nullableField_of_field? hv hnull, problems_map]
      exact List.mem_append_left _ (mem_problems_under hp)
    | tail _ hpart => exact List.mem_append_right _ (ih hpart)

end Declared

/-! ### Laws -/

/-- What is assumed of the decoders of a library. -/
class Validator.Lawful (V : Validator) : Prop where
  /-- A text is accepted as it is, and nothing else is taken for a text. -/
  text_iff (v : Json) (s : String) : V.text v = .sound s ↔ v = .text s
  /-- A floating-point number is itself. -/
  float_float (x : Binary64) : V.float (.float x) = .sound x
  /-- Neither a list nor a record is a number. -/
  float_isAtom {v : Json} {x : Binary64} (h : V.float v = .sound x) : v.IsAtom
  /-- An integer is itself. -/
  integer_int (n : Int) : V.integer (.int n) = .sound n
  integer_isAtom {v : Json} {n : Int} (h : V.integer v = .sound n) : v.IsAtom
  /-- Labels are distinct names with their texts. -/
  labels_entries (ls : Labels) : V.labels (.record (labelsFields ls.entries)) = .sound ls
  /-- Any record of texts is accepted as labels, and nothing else. -/
  exists_labels_iff (v : Json) :
    (∃ ls, V.labels v = .sound ls) ↔ ∃ pairs, v = .record (labelsFields pairs)
  /-- One of certain values is named by a text. -/
  member_iff {α : Type} (ofName? : String → Option α) (v : Json) (a : α) :
    V.member ofName? v = .sound a ↔ ∃ s, v = .text s ∧ ofName? s = some a
  /-- A list is accepted item by item. -/
  list_iff {α : Type} (decode : Decoder α) (v : Json) (xs : List α) :
    V.list decode v = .sound xs ↔
      ∃ vs, v = .list vs ∧ List.Forall₂ (fun v a => decode v = .sound a) vs xs
  /-- A problem of an item is reported under the position of the item. -/
  list_problem {α : Type} (decode : Decoder α) {vs : List Json} {i : Nat} {u : Json}
    (hi : vs[i]? = some u) {p : Problem} (hp : p ∈ (decode u).problems) :
    ⟨toString i :: p.path, p.kind⟩ ∈ (V.list decode (.list vs)).problems
  /-- A pair is a list of exactly two items. -/
  pair_iff {α β : Type} (first : Decoder α) (second : Decoder β) (v : Json) (ab : α × β) :
    V.pair first second v = .sound ab ↔
      ∃ w x, v = .list [w, x] ∧ first w = .sound ab.1 ∧ second x = .sound ab.2
  exists_record_of_sound {γ : Type} {d : Declared γ} {v : Json} {c : γ}
    (h : V.record d v = .sound c) : ∃ fields, v = .record fields
  /-- A record is accepted if its declared fields are and there are no others. -/
  record_iff {γ : Type} (d : Declared γ) {fields : Json.Fields}
    (hnames : (fields.map Prod.fst).Nodup) (c : γ) :
    V.record d (.record fields) = .sound c ↔
      d.Holds fields c ∧ ∀ field ∈ fields, field.1 ∈ d.names
  /-- A field that is not declared is reported. -/
  record_unknownField {γ : Type} (d : Declared γ) {fields : Json.Fields}
    (hnames : (fields.map Prod.fst).Nodup) {name : String} {v : Json} (hv : (name, v) ∈ fields)
    (hname : name ∉ d.names) :
    ⟨[name], .unknownField⟩ ∈ (V.record d (.record fields)).problems
  /-- A problem of a declared field is reported under its name. -/
  record_problem {α γ : Type} (d : Declared γ) {fields : Json.Fields}
    (hnames : (fields.map Prod.fst).Nodup) {name : String} {part : Decoder α}
    (hpart : (name, ⟨α, part⟩) ∈ d.parts) {v : Json} (hv : Json.field? fields name = some v)
    (hnull : v ≠ .null) {p : Problem} (hp : p ∈ (part v).problems) :
    ⟨name :: p.path, p.kind⟩ ∈ (V.record d (.record fields)).problems
  exists_tagged_of_sound {α : Type} {tag : String} {decoder? : String → Option (Decoder α)}
    {v : Json} {a : α} (h : V.tagged tag decoder? v = .sound a) : ∃ fields, v = .record fields
  /-- A tagged record is accepted by the decoder that its tag names. -/
  tagged_iff {α : Type} (tag : String) (decoder? : String → Option (Decoder α))
    {fields : Json.Fields} (hnames : (fields.map Prod.fst).Nodup) (a : α) :
    V.tagged tag decoder? (.record fields) = .sound a ↔
      ∃ name decode, Json.field? fields tag = some (.text name) ∧ decoder? name = some decode ∧
        decode (.record fields) = .sound a
  /-- A problem that the decoder of a tag finds is reported under the tag. -/
  tagged_problem {α : Type} {tag : String} {decoder? : String → Option (Decoder α)}
    {fields : Json.Fields} (hnames : (fields.map Prod.fst).Nodup) {name : String}
    {decode : Decoder α} (htag : Json.field? fields tag = some (.text name))
    (hdecode : decoder? name = some decode) {p : Problem}
    (hp : p ∈ (decode (.record fields)).problems) :
    ⟨name :: p.path, p.kind⟩ ∈ (V.tagged tag decoder? (.record fields)).problems

section Lawful

variable {σ : Type} {V : Validator} [V.Lawful] {d : Declared γ} {fields : Json.Fields}

open Validator.Lawful

/-- Labels are written as they are read, if no name stands twice. -/
theorem eq_of_labels {v : Json} {ls : Labels} (h : V.labels v = .sound ls) (hv : v.Distinct) :
    v = .record (labelsFields ls.entries) := by
  obtain ⟨pairs, rfl⟩ := (exists_labels_iff v).1 ⟨ls, h⟩
  have hpairs := hv.nodup
  rw [map_fst_labelsFields] at hpairs
  cases h.symm.trans (labels_entries ⟨pairs, hpairs⟩)
  rfl

/-- A structure is decoded as the record of its components, where `split` gives these. -/
theorem map_record_iff (split : σ → γ) {build : γ → σ} (hbuild : ∀ s, build (split s) = s)
    (hsplit : ∀ c, split (build c) = c) (hnames : (fields.map Prod.fst).Nodup) {s : σ} :
    build <$> V.record d (.record fields) = .sound s ↔
      d.Holds fields (split s) ∧ ∀ field ∈ fields, field.1 ∈ d.names := by
  rw [map_eq_sound_iff, ← record_iff (V := V) d hnames]
  constructor
  · rintro ⟨c, hc, rfl⟩
    rwa [hsplit]
  · exact fun h => ⟨split s, h, hbuild s⟩

theorem exists_record_of_map {build : γ → σ} {v : Json} {s : σ}
    (h : build <$> V.record d v = .sound s) : ∃ fields, v = .record fields := by
  obtain ⟨c, hc, -⟩ := map_eq_sound_iff.1 h
  exact exists_record_of_sound hc

end Lawful

/-! ### The library that runs -/

theorem merged_of_nodup {fields : Json.Fields} (h : (fields.map Prod.fst).Nodup) :
    merged (.record fields) = .record fields := by
  rw [merged, Keyed.ofPairs_of_nodup h]

theorem exists_record_of_merged {v : Json} {fields : Json.Fields}
    (h : merged v = .record fields) : ∃ fields, v = .record fields := by
  cases v with
  | record fields => exact ⟨fields, rfl⟩
  | _ => cases h

instance Validator.lawful_standard (source : Source) : (Validator.standard source).Lawful where
  text_iff _ _ := text_eq_sound_iff
  float_float _ := rfl
  float_isAtom := isAtom_of_float
  integer_int _ := rfl
  integer_isAtom := isAtom_of_integer
  labels_entries ls := labels_eq_sound_iff.2 ⟨_, rfl, ls.ofPairs_entries⟩
  exists_labels_iff v := by
    simp only [Validator.standard, labels_eq_sound_iff]
    exact ⟨fun ⟨_, pairs, hv, _⟩ => ⟨pairs, hv⟩, fun ⟨pairs, hv⟩ => ⟨_, pairs, hv, rfl⟩⟩
  member_iff _ _ _ := member_eq_sound_iff
  list_iff _ _ _ := list_eq_sound_iff
  list_problem decode _ i _ hi _ hp := by
    have hitem := items_problem 0 hi hp
    rwa [Nat.zero_add] at hitem
  pair_iff _ _ _ _ := pair_eq_sound_iff
  exists_record_of_sound h := by
    obtain ⟨fields, hfields, -⟩ := closedRecord_eq_sound_iff.1 h
    exact exists_record_of_merged hfields
  record_iff d fields hnames c := by
    change closedRecord d.names d.build (merged (.record fields)) = .sound c ↔ _
    simp only [merged_of_nodup hnames, closedRecord_eq_sound_iff, Json.record.injEq,
      exists_eq_left', Declared.build_eq_sound_iff]
  record_unknownField d fields hnames name v hv hname := by
    change _ ∈ (closedRecord d.names d.build (merged (.record fields))).problems
    rw [merged_of_nodup hnames]
    exact closedRecord_problem hv hname
  record_problem d fields hnames name part hpart v hv hnull p hp := by
    change _ ∈ (closedRecord d.names d.build (merged (.record fields))).problems
    rw [merged_of_nodup hnames, closedRecord, problems_seqLeft]
    exact List.mem_append_left _ (Declared.build_problem hpart hv hnull hp)
  exists_tagged_of_sound {_ tag decoder? v a} h := by
    cases v with
    | record fields => exact ⟨fields, rfl⟩
    | _ => exact absurd h problem_ne_sound
  tagged_iff _ _ _ hnames _ := tagged_eq_sound_iff source hnames
  tagged_problem hnames _ _ htag hdecode _ hp := by
    simp only [Validator.standard, tagged_of_field? hnames htag hdecode]
    exact mem_problems_under hp

instance (source : Source) : (Library.standard.validator source).Lawful :=
  Validator.lawful_standard source

end Schema
end MetricQuery
