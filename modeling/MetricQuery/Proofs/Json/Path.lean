import MetricQuery.Json.Basic
import MetricQuery.Proofs.Keyed

/-!
# Places in documents

A path leads through fields and items to one place of a document. `Json.setAt` puts a new value
there and leaves the rest of the document as it is.
-/

namespace MetricQuery
namespace Json

theorem field?_cons (name : String) (v : Json) (rest : Fields) (other : String) :
    field? ((name, v) :: rest) other = if name = other then some v else field? rest other := by
  by_cases h : name = other <;> simp [field?, h]

theorem field?_of_mem {fields : Fields} {name : String} {v : Json}
    (hnames : (fields.map Prod.fst).Nodup) (h : (name, v) ∈ fields) :
    field? fields name = some v := by
  induction fields with
  | nil => cases h
  | cons field rest ih =>
    obtain ⟨first, w⟩ := field
    rw [List.map_cons, List.nodup_cons] at hnames
    rw [field?_cons]
    obtain heq | h := List.mem_cons.1 h
    · cases heq
      exact if_pos rfl
    · have hne : first ≠ name := by
        rintro rfl
        exact hnames.1 (List.mem_map.2 ⟨_, h, rfl⟩)
      rw [if_neg hne, ih hnames.2 h]

theorem exists_mem_of_field? {fields : Fields} {name : String} {v : Json}
    (h : field? fields name = some v) : (name, v) ∈ fields := by
  obtain ⟨⟨name', v'⟩, hfind, rfl⟩ := Option.map_eq_some_iff.1 h
  have hname : name' = name := by simpa using List.find?_some hfind
  exact hname ▸ List.mem_of_find?_eq_some hfind

theorem field?_put (name : String) (v : Json) (fields : Fields) (other : String) :
    field? (Keyed.put name v fields) other =
      if name = other then some v else field? fields other := by
  induction fields with
  | nil => exact field?_cons ..
  | cons field rest ih =>
    obtain ⟨first, w⟩ := field
    rw [Keyed.put]
    by_cases hfirst : first = name
    · subst hfirst
      rw [if_pos rfl, field?_cons, field?_cons]
      split <;> rfl
    · rw [if_neg hfirst, field?_cons, field?_cons, ih]
      by_cases hother : first = other
      · subst hother
        rw [if_pos rfl, if_neg (Ne.symm hfirst), if_pos rfl]
      · rw [if_neg hother, if_neg hother]

theorem field?_put_self (name : String) (v : Json) (fields : Fields) :
    field? (Keyed.put name v fields) name = some v :=
  (field?_put ..).trans (if_pos rfl)

/-- One step into a document. -/
inductive Step where
  | field (name : String)
  | item (i : Nat)

abbrev Path := List Step

/-- The value that a step leads to. -/
def child? : Step → Json → Option Json
  | .field name, .record fields => field? fields name
  | .item i, .list items => items[i]?
  | _, _ => none

/-- The value that a path leads to. -/
def at? : Path → Json → Option Json
  | [], v => some v
  | step :: path, v => (child? step v).bind (at? path)

/-- A document with a new value in place of the one that a step leads to. -/
def setChild (new : Json) : Step → Json → Json
  | .field name, .record fields => .record (Keyed.put name new fields)
  | .item i, .list items => .list (items.set i new)
  | _, v => v

/-- A document with a new value in place of the one that a path leads to. -/
def setAt (new : Json) : Path → Json → Json
  | [], _ => new
  | step :: path, v =>
    match child? step v with
    | some u => setChild (setAt new path u) step v
    | none => v

variable {path rest : Path} {step : Step} {v u new : Json}

theorem at?_cons_eq_some_iff :
    at? (step :: path) v = some u ↔ ∃ x, child? step v = some x ∧ at? path x = some u :=
  Option.bind_eq_some_iff

theorem at?_append_eq_some_iff :
    at? (path ++ rest) v = some u ↔ ∃ x, at? path v = some x ∧ at? rest x = some u := by
  induction path generalizing v with
  | nil => exact ⟨fun h => ⟨v, rfl, h⟩, by rintro ⟨_, ⟨⟩, h⟩; exact h⟩
  | cons step path ih =>
    simp only [List.cons_append, at?_cons_eq_some_iff, ih]
    constructor
    · rintro ⟨y, hy, x, hx, hu⟩
      exact ⟨x, ⟨y, hy, hx⟩, hu⟩
    · rintro ⟨x, ⟨y, hy, hx⟩, hu⟩
      exact ⟨y, hy, x, hx, hu⟩

theorem setAt_append (h : at? path v = some u) :
    setAt new (path ++ rest) v = setAt (setAt new rest u) path v := by
  induction path generalizing v with
  | nil =>
    cases h
    rfl
  | cons step path ih =>
    obtain ⟨x, hx, hu⟩ := at?_cons_eq_some_iff.1 h
    simp only [List.cons_append, setAt, hx, ih hu]

theorem child?_field_eq_some_iff {name : String} : child? (.field name) v = some u ↔
    ∃ fields, v = .record fields ∧ field? fields name = some u := by
  cases v <;> simp [child?]

theorem child?_item_eq_some_iff {i : Nat} :
    child? (.item i) v = some u ↔ ∃ items, v = .list items ∧ items[i]? = some u := by
  cases v <;> simp [child?]

/-- A value that is neither a list nor a record. -/
def IsAtom : Json → Prop
  | .list _ | .record _ => False
  | _ => True

theorem IsAtom.child?_ne_some (h : v.IsAtom) : child? step v ≠ some u := by
  intro hu
  cases step with
  | field name =>
    obtain ⟨_, rfl, -⟩ := child?_field_eq_some_iff.1 hu
    exact h
  | item i =>
    obtain ⟨_, rfl, -⟩ := child?_item_eq_some_iff.1 hu
    exact h

theorem IsAtom.eq_nil_of_at? (h : v.IsAtom) (hu : at? path v = some u) : path = [] := by
  cases path with
  | nil => rfl
  | cons step path =>
    obtain ⟨x, hx, -⟩ := at?_cons_eq_some_iff.1 hu
    exact absurd hx h.child?_ne_some

theorem setAt_field {fields : Fields} {name : String} (h : field? fields name = some u) :
    setAt new [.field name] (.record fields) = .record (Keyed.put name new fields) := by
  simp only [setAt, child?, h, setChild]

theorem setAt_item {items : List Json} {i : Nat} (h : items[i]? = some u) :
    setAt new [.item i] (.list items) = .list (items.set i new) := by
  simp only [setAt, child?, h, setChild]

theorem record_ne_null (fields : Fields) : record fields ≠ .null := nofun

theorem list_ne_null (items : List Json) : list items ≠ .null := nofun

theorem ne_null_of_child? (h : child? step v = some u) : v ≠ .null := by
  rintro rfl
  cases step <;> cases h

theorem ne_null_of_at? (h : at? path v = some u) (hu : u ≠ .null) : v ≠ .null := by
  cases path with
  | nil => exact fun hv => hu (Option.some.inj h ▸ hv)
  | cons step path =>
    obtain ⟨x, hx, -⟩ := at?_cons_eq_some_iff.1 h
    exact ne_null_of_child? hx

/-- A value that is not null stays so with a new value, not null, somewhere in it. -/
theorem setAt_ne_null (h : at? path v = some u) (hnew : new ≠ .null) :
    setAt new path v ≠ .null := by
  cases path with
  | nil => exact hnew
  | cons step path =>
    obtain ⟨x, hx, -⟩ := at?_cons_eq_some_iff.1 h
    cases step with
    | field name =>
      obtain ⟨fields, rfl, hfield⟩ := child?_field_eq_some_iff.1 hx
      simp [setAt, hx, setChild]
    | item i =>
      obtain ⟨items, rfl, hitem⟩ := child?_item_eq_some_iff.1 hx
      simp [setAt, hx, setChild]

/-! ### Distinct names -/

/-- No name stands twice in a record, however deep the record stands in the document. -/
def Distinct (v : Json) : Prop :=
  ∀ path fields, at? path v = some (.record fields) → (fields.map Prod.fst).Nodup

theorem Distinct.nodup {fields : Fields} (h : (record fields).Distinct) :
    (fields.map Prod.fst).Nodup :=
  h [] fields rfl

theorem Distinct.child (h : v.Distinct) (hu : child? step v = some u) : u.Distinct :=
  fun path fields hat => h (step :: path) fields (at?_cons_eq_some_iff.2 ⟨u, hu, hat⟩)

theorem Distinct.of_at? (h : v.Distinct) (hu : at? path v = some u) : u.Distinct :=
  fun rest fields hat => h (path ++ rest) fields (at?_append_eq_some_iff.2 ⟨u, hu, hat⟩)

theorem Distinct.item {items : List Json} (h : (list items).Distinct) (hv : v ∈ items) :
    v.Distinct := by
  obtain ⟨i, hi⟩ := List.mem_iff_getElem?.1 hv
  have hchild : child? (.item i) (.list items) = some v := hi
  exact h.child hchild

theorem Distinct.field {fields : Fields} {name : String} (h : (record fields).Distinct)
    (hv : field? fields name = some v) : v.Distinct :=
  have hchild : child? (.field name) (.record fields) = some v := hv
  h.child hchild

theorem distinct_of_child (hself : ∀ fields, v = record fields → (fields.map Prod.fst).Nodup)
    (h : ∀ step u, child? step v = some u → u.Distinct) : v.Distinct := by
  intro path fields hat
  cases path with
  | nil => exact hself fields (Option.some.inj hat)
  | cons step path =>
    obtain ⟨x, hx, hrest⟩ := at?_cons_eq_some_iff.1 hat
    exact h step x hx path fields hrest

theorem IsAtom.distinct (h : v.IsAtom) : v.Distinct := by
  refine distinct_of_child ?_ fun _ _ hu => absurd hu h.child?_ne_some
  rintro fields rfl
  exact absurd h id

theorem distinct_list {items : List Json} (h : ∀ v ∈ items, v.Distinct) :
    (list items).Distinct := by
  refine distinct_of_child nofun fun step u hu => ?_
  cases step with
  | field name => cases hu
  | item i => exact h u (List.mem_of_getElem? hu)

theorem distinct_record {fields : Fields} (hnames : (fields.map Prod.fst).Nodup)
    (h : ∀ v ∈ fields.map Prod.snd, v.Distinct) : (record fields).Distinct := by
  refine distinct_of_child ?_ fun step u hu => ?_
  · rintro _ ⟨⟩
    exact hnames
  · cases step with
    | field name => exact h u (List.mem_map_of_mem (exists_mem_of_field? hu))
    | item i => cases hu

/-! ### Fields more and fields less -/

section Edit

variable {fields fields' : Fields} {name other : String} {v : Json}

/-- The second fields are the first and one more, which may stand anywhere among them. -/
def Adds (fields : Fields) (name : String) (v : Json) (fields' : Fields) : Prop :=
  ∃ front back, fields = front ++ back ∧ fields' = front ++ (name, v) :: back

theorem field?_append (front back : Fields) (name : String) :
    field? (front ++ back) name = (field? front name).or (field? back name) := by
  rw [field?, List.find?_append, field?, field?]
  cases front.find? (·.1 == name) <;> rfl

theorem Adds.mem (h : Adds fields name v fields') : (name, v) ∈ fields' := by
  obtain ⟨front, back, -, rfl⟩ := h
  exact List.mem_append_right _ List.mem_cons_self

/-- A new name stands only once. -/
theorem Adds.nodup (h : Adds fields name v fields') (hfields : (fields.map Prod.fst).Nodup)
    (hname : name ∉ fields.map Prod.fst) : (fields'.map Prod.fst).Nodup := by
  obtain ⟨front, back, rfl, rfl⟩ := h
  rw [List.map_append, List.map_cons, List.nodup_middle, ← List.map_append, List.nodup_cons]
  exact ⟨hname, hfields⟩

theorem Adds.field?_of_ne (h : Adds fields name v fields') (hne : name ≠ other) :
    field? fields' other = field? fields other := by
  obtain ⟨front, back, rfl, rfl⟩ := h
  rw [field?_append, field?_append, field?_cons, if_neg hne]

/-- The fields of all names but one. -/
def without (name : String) (fields : Fields) : Fields := fields.filter (·.1 != name)

theorem nodup_without (h : (fields.map Prod.fst).Nodup) (name : String) :
    ((without name fields).map Prod.fst).Nodup :=
  h.sublist (List.filter_sublist.map Prod.fst)

theorem field?_without (name : String) (fields : Fields) (other : String) :
    field? (without name fields) other = if name = other then none else field? fields other := by
  induction fields with
  | nil => exact (ite_self none).symm
  | cons field rest ih =>
    obtain ⟨first, w⟩ := field
    rw [without, List.filter_cons, field?_cons]
    by_cases hfirst : first = name
    · subst hfirst
      rw [if_neg (by simp)]
      refine ih.trans ?_
      split <;> rfl
    · rw [if_pos (by simpa using hfirst), field?_cons]
      by_cases hother : first = other
      · subst hother
        rw [if_pos rfl, if_neg (Ne.symm hfirst), if_pos rfl]
      · rw [if_neg hother, if_neg hother]
        exact ih

end Edit

end Json
end MetricQuery
