import Mathlib.Data.List.Forall2
import Mathlib.Data.Option.Defs
import MetricQuery.Proofs.Json.Path
import MetricQuery.Proofs.Schema.Checked
import MetricQuery.Schema.Container

/-!
# Decoded containers

What it means that a list, a pair, a map of labels or a record is sound: what its parts stand for,
each at its place. The problems of a container are those of its parts, under the places of these.
-/

namespace MetricQuery

namespace Json

/-- The value of a field that is there and not null. -/
def given? (fields : Fields) (name : String) : Option Json :=
  match field? fields name with
  | some .null => none
  | v? => v?

theorem given?_of_field? {fields : Fields} {name : String} {v : Json}
    (h : field? fields name = some v) (hv : v ≠ .null) : given? fields name = some v := by
  rw [given?, h]
  split
  case h_1 heq => exact absurd (Option.some.inj heq) hv
  case h_2 => rfl

theorem field?_of_given? {fields : Fields} {name : String} {v : Json}
    (h : given? fields name = some v) : field? fields name = some v := by
  rw [given?] at h
  split at h
  case h_1 => cases h
  case h_2 => exact h

end Json

namespace Schema

open Checked

variable {α β : Type} {decode : Decoder α}

theorem text_eq_sound_iff {v : Json} {s : String} : text v = .sound s ↔ v = .text s := by
  cases v <;> simp [text, problem]

theorem isAtom_of_integer {v : Json} {n : Int} (h : integer v = .sound n) : v.IsAtom := by
  cases v with
  | list items | record fields => exact absurd h problem_ne_sound
  | _ => trivial

theorem isAtom_of_float {v : Json} {source : Source} {x : Binary64}
    (h : float source v = .sound x) : v.IsAtom := by
  cases v with
  | list items | record fields => exact absurd h problem_ne_sound
  | _ => trivial

/-! ### Fields -/

variable {fields : Json.Fields} {name : String}

theorem required_eq_sound_iff {a : α} : required fields name decode = .sound a ↔
    ∃ v, Json.field? fields name = some v ∧ decode v = .sound a := by
  unfold required
  cases Json.field? fields name <;> simp [under_eq_sound_iff, problem_ne_sound]

theorem required_of_field? {v : Json} (hv : Json.field? fields name = some v) :
    required fields name decode = (decode v).under name := by
  rw [required, hv]

theorem nullableField_eq (decode : Decoder α) : nullableField fields name decode =
    match Json.given? fields name with
    | none => .sound none
    | some v => some <$> (decode v).under name := by
  unfold nullableField optional Json.given?
  rcases Json.field? fields name with _ | v
  · rfl
  · cases v
    case null => rfl
    all_goals
      simp only [nullable]
      cases decode _ <;> rfl

theorem rel_imp {R S : α → β → Prop} {a? : Option α} {b? : Option β}
    (himp : ∀ a b, a? = some a → R a b → S a b) (h : Option.Rel R a? b?) :
    Option.Rel S a? b? := by
  cases h with
  | none => exact .none
  | some h => exact .some (himp _ _ rfl h)

theorem exists_of_rel_some {R : α → β → Prop} {a : α} {b? : Option β}
    (h : Option.Rel R (some a) b?) : ∃ b, b? = some b ∧ R a b := by
  cases h with
  | some h => exact ⟨_, rfl, h⟩

/-- A field that may be null stands for nothing where none is given, and else for its value. -/
theorem nullableField_eq_sound_iff {a? : Option α} :
    nullableField fields name decode = .sound a? ↔
      Option.Rel (fun v a => decode v = .sound a) (Json.given? fields name) a? := by
  rw [nullableField_eq]
  cases Json.given? fields name with
  | none =>
    constructor
    · rintro ⟨⟩
      exact .none
    · rintro ⟨⟩
      rfl
  | some v =>
    simp only [map_eq_sound_iff, under_eq_sound_iff]
    constructor
    · rintro ⟨a, ha, rfl⟩
      exact .some ha
    · rintro ⟨ha⟩
      exact ⟨_, ha, rfl⟩

theorem nullableField_of_field? {v : Json} (hv : Json.field? fields name = some v)
    (hnull : v ≠ .null) : nullableField fields name decode = some <$> (decode v).under name := by
  rw [nullableField_eq, Json.given?_of_field? hv hnull]

theorem declaredOnly_eq_sound_iff {declared : List String} {u : Unit} :
    declaredOnly declared fields = .sound u ↔ ∀ field ∈ fields, field.1 ∈ declared := by
  induction fields with
  | nil => simp [declaredOnly]
  | cons field rest ih =>
    obtain ⟨name, v⟩ := field
    rw [declaredOnly, List.forall_mem_cons, ← ih]
    split
    · rename_i h
      simp [h]
    · rename_i h
      simp [h, seqLeft_eq_sound_iff, under_eq_sound_iff, problem_ne_sound]

theorem closedRecord_eq_sound_iff {declared : List String} {build : Json.Fields → Checked α}
    {v : Json} {a : α} : closedRecord declared build v = .sound a ↔
      ∃ fields, v = .record fields ∧ build fields = .sound a ∧
        ∀ field ∈ fields, field.1 ∈ declared := by
  cases v with
  | record fields =>
    simp only [closedRecord, seqLeft_eq_sound_iff, declaredOnly_eq_sound_iff, Json.record.injEq,
      exists_eq_left', exists_const]
  | _ => simp [closedRecord, problem_ne_sound]

theorem declaredOnly_problem {declared : List String} {v : Json}
    (hv : (name, v) ∈ fields) (hname : name ∉ declared) :
    ⟨[name], .unknownField⟩ ∈ (declaredOnly declared fields).problems := by
  induction fields with
  | nil => cases hv
  | cons field rest ih =>
    obtain ⟨first, w⟩ := field
    rw [declaredOnly]
    obtain heq | hv := List.mem_cons.1 hv
    · cases heq
      rw [if_neg hname, problems_seqLeft]
      exact List.mem_append_left _ List.mem_cons_self
    · split
      · exact ih hv
      · rw [problems_seqLeft]
        exact List.mem_append_right _ (ih hv)

theorem closedRecord_problem {declared : List String} {build : Json.Fields → Checked α}
    {v : Json} (hv : (name, v) ∈ fields) (hname : name ∉ declared) :
    ⟨[name], .unknownField⟩ ∈ (closedRecord declared build (.record fields)).problems := by
  rw [closedRecord, problems_seqLeft]
  exact List.mem_append_right _ (declaredOnly_problem hv hname)

/-! ### Lists -/

theorem items_eq_sound_iff {start : Nat} {vs : List Json} {xs : List α} :
    items decode start vs = .sound xs ↔ List.Forall₂ (fun v a => decode v = .sound a) vs xs := by
  induction vs generalizing start xs with
  | nil => cases xs <;> simp [items]
  | cons v vs ih =>
    simp only [items, seq_eq_sound_iff, map_eq_sound_iff, under_eq_sound_iff, ih,
      List.forall₂_cons_left_iff]
    constructor
    · rintro ⟨_, rest, ⟨a, ha, rfl⟩, hrest, rfl⟩
      exact ⟨a, rest, ha, hrest, rfl⟩
    · rintro ⟨a, rest, ha, hrest, rfl⟩
      exact ⟨_, rest, ⟨a, ha, rfl⟩, hrest, rfl⟩

theorem list_eq_sound_iff {v : Json} {xs : List α} : list decode v = .sound xs ↔
    ∃ vs, v = .list vs ∧ List.Forall₂ (fun v a => decode v = .sound a) vs xs := by
  cases v <;> simp [list, items_eq_sound_iff, problem_ne_sound]

theorem items_problem {vs : List Json} (start : Nat) {i : Nat} {u : Json} {p : Problem}
    (hi : vs[i]? = some u) (hp : p ∈ (decode u).problems) :
    ⟨toString (start + i) :: p.path, p.kind⟩ ∈ (items decode start vs).problems := by
  induction vs generalizing start i with
  | nil => cases hi
  | cons v vs ih =>
    rw [items, problems_seq, problems_map]
    cases i with
    | zero =>
      cases hi
      exact List.mem_append_left _ (mem_problems_under hp)
    | succ i =>
      rw [Nat.add_comm i, ← Nat.add_assoc]
      exact List.mem_append_right _ (ih (start + 1) hi)

theorem pair_eq_sound_iff {second : Decoder β} {v : Json} {ab : α × β} :
    pair decode second v = .sound ab ↔
      ∃ w x, v = .list [w, x] ∧ decode w = .sound ab.1 ∧ second x = .sound ab.2 := by
  unfold pair
  split
  case h_3 w x =>
    simp only [seq_eq_sound_iff, map_eq_sound_iff, under_eq_sound_iff]
    constructor
    · rintro ⟨_, b, ⟨a, ha, rfl⟩, hb, rfl⟩
      exact ⟨w, x, rfl, ha, hb⟩
    · rintro ⟨_, _, ⟨⟩, ha, hb⟩
      exact ⟨_, _, ⟨_, ha, rfl⟩, hb, rfl⟩
  case h_4 hlong =>
    refine ⟨fun h => absurd h problem_ne_sound, ?_⟩
    rintro ⟨w, x, ⟨⟩, -⟩
    exact absurd rfl (hlong w x)
  case h_5 hlist =>
    refine ⟨fun h => absurd h problem_ne_sound, ?_⟩
    rintro ⟨w, x, rfl, -⟩
    exact absurd rfl (hlist [w, x])
  all_goals simp [seq_eq_sound_iff, map_eq_sound_iff, under_eq_sound_iff, problem_ne_sound]

/-! ### Labels -/

/-- Labels as the fields of a record of texts. -/
def labelsFields (ls : List (String × String)) : Json.Fields :=
  ls.map fun label => (label.1, .text label.2)

theorem map_fst_labelsFields (pairs : List (String × String)) :
    (labelsFields pairs).map Prod.fst = pairs.map Prod.fst := by
  rw [labelsFields, List.map_map]
  rfl

theorem labelFields_eq_sound_iff {ls : List (String × String)} :
    labelFields fields = .sound ls ↔ fields = labelsFields ls := by
  induction fields generalizing ls with
  | nil => cases ls <;> simp [labelFields, labelsFields]
  | cons field rest ih =>
    obtain ⟨name, v⟩ := field
    simp only [labelFields, seq_eq_sound_iff, map_eq_sound_iff, under_eq_sound_iff,
      text_eq_sound_iff, ih]
    constructor
    · rintro ⟨_, ls, ⟨_, ⟨s, rfl, rfl⟩, rfl⟩, rfl, rfl⟩
      rfl
    · intro h
      cases ls with
      | nil => cases h
      | cons label ls =>
        obtain ⟨hlabel, hrest⟩ := List.cons.inj h
        cases hlabel
        exact ⟨_, ls, ⟨_, ⟨_, rfl, rfl⟩, rfl⟩, hrest, rfl⟩

theorem labels_eq_sound_iff {v : Json} {ls : Labels} : labels v = .sound ls ↔
    ∃ pairs, v = .record (labelsFields pairs) ∧ Labels.ofPairs pairs = ls := by
  cases v <;> simp [labels, labelFields_eq_sound_iff, map_eq_sound_iff, problem_ne_sound]

/-! ### Values by name -/

theorem member_eq_sound_iff {ofName? : String → Option α} {v : Json} {a : α} :
    member ofName? v = .sound a ↔ ∃ s, v = .text s ∧ ofName? s = some a := by
  cases v with
  | text s =>
    simp only [member, Json.text.injEq, exists_eq_left']
    cases ofName? s <;> simp [problem_ne_sound]
  | _ => simp [member, problem_ne_sound]

theorem tagged_of_field? {source : Source} {tag : String} {decoder? : String → Option (Decoder α)}
    (hnames : (fields.map Prod.fst).Nodup) (htag : Json.field? fields tag = some (.text name))
    (hdecode : decoder? name = some decode) :
    tagged source tag decoder? (.record fields) = (decode (.record fields)).under name := by
  simp only [tagged, Keyed.ofPairs_of_nodup hnames, htag, hdecode]

theorem tagged_eq_sound_iff (source : Source) {tag : String}
    {decoder? : String → Option (Decoder α)} (hnames : (fields.map Prod.fst).Nodup) {a : α} :
    tagged source tag decoder? (.record fields) = .sound a ↔
      ∃ name decode, Json.field? fields tag = some (.text name) ∧ decoder? name = some decode ∧
        decode (.record fields) = .sound a := by
  constructor
  · intro h
    rw [tagged, Keyed.ofPairs_of_nodup hnames] at h
    split at h
    case h_1 | h_3 => exact absurd h problem_ne_sound
    rename_i name htag
    split at h
    case h_1 => exact absurd h problem_ne_sound
    rename_i decode hdecode
    exact ⟨name, decode, htag, hdecode, under_eq_sound_iff.1 h⟩
  · rintro ⟨name, decode, htag, hdecode, h⟩
    rw [tagged_of_field? hnames htag hdecode]
    exact under_eq_sound_iff.2 h

end Schema
end MetricQuery
