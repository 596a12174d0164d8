import MetricQuery.Proofs.Schema.Lawful

/-!
# Parts of documents

A document is decoded part by part, each part by a decoder of its own. `IsPart` says what becomes of
the whole when one part is given a new value: it is accepted as the part is, and the problems of the
part are reported under a location. Parts of parts are parts.
-/

namespace MetricQuery
namespace Schema

open Checked

variable {α β γ : Type}

/-- When `decode` reads the document `v`, the decoder `part` reads the value `u` at the path as `b`.
With another value there, which must not be null, `decode` accepts the document if `part` accepts
that value, and otherwise reports the problems of `part` under the location. -/
structure IsPart (decode : Decoder α) (v : Json) (path : Json.Path) (part : Decoder β)
    (location : List String) (u : Json) (b : β) : Prop where
  at_path : Json.at? path v = some u
  read : part u = .sound b
  accepts_iff {new : Json} : new ≠ .null →
    ((∃ a, decode (Json.setAt new path v) = .sound a) ↔ ∃ b, part new = .sound b)
  reports {new : Json} {p : Problem} : new ≠ .null → p ∈ (part new).problems →
    ⟨location ++ p.path, p.kind⟩ ∈ (decode (Json.setAt new path v)).problems

namespace IsPart

variable {decode : Decoder α} {part : Decoder β} {v u : Json} {path : Json.Path}
variable {location : List String} {a : α} {b : β}

theorem refl (h : decode v = .sound a) : IsPart decode v [] decode [] v a where
  at_path := rfl
  read := h
  accepts_iff _ := .rfl
  reports _ hp := hp

/-- The parts of a part, at the joined path and under the joined location. -/
theorem trans (h : IsPart decode v path part location u b) {inner : Decoder γ} {path' : Json.Path}
    {location' : List String} {w : Json} {c : γ} (h' : IsPart part u path' inner location' w c) :
    IsPart decode v (path ++ path') inner (location ++ location') w c where
  at_path := Json.at?_append_eq_some_iff.2 ⟨u, h.at_path, h'.at_path⟩
  read := h'.read
  accepts_iff hnew := by
    rw [Json.setAt_append h.at_path, h.accepts_iff (Json.setAt_ne_null h'.at_path hnew),
      h'.accepts_iff hnew]
  reports hnew hp := by
    rw [Json.setAt_append h.at_path, List.append_assoc]
    exact h.reports (Json.setAt_ne_null h'.at_path hnew) (h'.reports hnew hp)

theorem mapped (h : IsPart decode v path part location u b) (g : α → γ) :
    IsPart (fun v => g <$> decode v) v path part location u b where
  at_path := h.at_path
  read := h.read
  accepts_iff hnew := by
    rw [← h.accepts_iff hnew]
    simp only [map_eq_sound_iff]
    exact ⟨fun ⟨_, a, ha, _⟩ => ⟨a, ha⟩, fun ⟨a, ha⟩ => ⟨g a, a, ha, rfl⟩⟩
  reports hnew hp := by
    rw [problems_map]
    exact h.reports hnew hp

end IsPart

/-! ### Fields of records -/

section Fields

variable {fields : Json.Fields} {name other : String} {new u : Json} {d : Declared γ} {c : γ}
variable {part : Decoder α} {a : α} {V : Validator} [V.Lawful]

theorem given?_put_of_ne (h : name ≠ other) :
    Json.given? (Keyed.put name new fields) other = Json.given? fields other := by
  simp only [Json.given?, Json.field?_put, if_neg h]

namespace Declared

theorem holds_put_of_notMem (h : name ∉ d.names) :
    d.Holds (Keyed.put name new fields) c ↔ d.Holds fields c := by
  induction d with
  | none => exact .rfl
  | required first decode rest ih =>
    obtain ⟨hne, hrest⟩ := not_or.1 (mt List.mem_cons.2 h)
    simp only [Holds, Json.field?_put, if_neg hne, ih hrest]
  | nullable first decode rest ih =>
    obtain ⟨hne, hrest⟩ := not_or.1 (mt List.mem_cons.2 h)
    simp only [Holds, given?_put_of_ne hne, ih hrest]

/-- A record with another value in a declared field stands for something if that value does. -/
theorem Holds.exists_put_iff (h : d.Holds fields c) (hnames : d.names.Nodup)
    (hpart : (name, ⟨α, part⟩) ∈ d.parts) (hnew : new ≠ .null) :
    (∃ c, d.Holds (Keyed.put name new fields) c) ↔ ∃ a, part new = .sound a := by
  induction d with
  | none => cases hpart
  | required first decode rest ih =>
    obtain ⟨hfirst, hnames⟩ := List.nodup_cons.1 hnames
    cases hpart with
    | head =>
      simp only [Holds, Json.field?_put, if_pos, holds_put_of_notMem hfirst]
      constructor
      · rintro ⟨c, ⟨v, hv, hread⟩, -⟩
        cases hv
        exact ⟨_, hread⟩
      · rintro ⟨a, hread⟩
        exact ⟨(a, c.2), ⟨new, rfl, hread⟩, h.2⟩
    | tail _ hpart =>
      have hne : name ≠ first := by
        rintro rfl
        exact hfirst (name_mem_of_mem_parts hpart)
      rw [← ih h.2 hnames hpart]
      simp only [Holds, Json.field?_put, if_neg hne]
      constructor
      · rintro ⟨c, -, hrest⟩
        exact ⟨c.2, hrest⟩
      · rintro ⟨rest, hrest⟩
        exact ⟨(c.1, rest), h.1, hrest⟩
  | nullable first decode rest ih =>
    obtain ⟨hfirst, hnames⟩ := List.nodup_cons.1 hnames
    cases hpart with
    | head =>
      simp only [Holds, holds_put_of_notMem hfirst,
        Json.given?_of_field? (Json.field?_put_self ..) hnew]
      constructor
      · rintro ⟨c, hgiven, -⟩
        obtain ⟨a, -, hread⟩ := exists_of_rel_some hgiven
        exact ⟨a, hread⟩
      · rintro ⟨a, hread⟩
        exact ⟨(some a, c.2), .some hread, h.2⟩
    | tail _ hpart =>
      have hne : name ≠ first := by
        rintro rfl
        exact hfirst (name_mem_of_mem_parts hpart)
      rw [← ih h.2 hnames hpart]
      simp only [Holds, given?_put_of_ne hne]
      constructor
      · rintro ⟨c, -, hrest⟩
        exact ⟨c.2, hrest⟩
      · rintro ⟨rest, hrest⟩
        exact ⟨(c.1, rest), h.1, hrest⟩

end Declared

open Validator.Lawful

/-- A declared field is a part of its record. -/
theorem isPart_field (h : V.record d (.record fields) = .sound c)
    (hfields : (fields.map Prod.fst).Nodup) (hnames : d.names.Nodup)
    (hpart : (name, ⟨α, part⟩) ∈ d.parts) (hu : Json.field? fields name = some u)
    (hread : part u = .sound a) :
    IsPart (V.record d) (.record fields) [.field name] part [name] u a := by
  obtain ⟨hholds, hdeclared⟩ := (record_iff d hfields c).1 h
  have hput {new : Json} : ((Keyed.put name new fields).map Prod.fst).Nodup :=
    Keyed.nodup_put name new hfields
  refine ⟨Json.at?_cons_eq_some_iff.2 ⟨u, hu, rfl⟩, hread, fun {new} hnew => ?_,
    fun {new p} hnew hp => ?_⟩
  · rw [Json.setAt_field hu, ← hholds.exists_put_iff hnames hpart hnew]
    simp only [record_iff d hput]
    refine ⟨fun ⟨c, hc, _⟩ => ⟨c, hc⟩, fun ⟨c, hc⟩ => ⟨c, hc, fun field hfield => ?_⟩⟩
    obtain rfl | hfield := Keyed.mem_put hfield
    · exact Declared.name_mem_of_mem_parts hpart
    · exact hdeclared field hfield
  · rw [Json.setAt_field hu]
    exact record_problem d hput hpart (Json.field?_put_self ..) hnew hp

/-- A declared field that is given is a part of its record, in an accepted document. -/
theorem exists_isPart_field {σ : Type} {build : γ → σ} {s : σ} {v : Json}
    (h : build <$> V.record d v = .sound s) (hv : v.Distinct) (hnames : d.names.Nodup)
    (hpart : (name, ⟨α, part⟩) ∈ d.parts) (hu : Json.child? (.field name) v = some u)
    (hnull : u ≠ .null) :
    ∃ a, IsPart (fun v => build <$> V.record d v) v [.field name] part [name] u a := by
  obtain ⟨c, hc, -⟩ := map_eq_sound_iff.1 h
  obtain ⟨fields, rfl⟩ := exists_record_of_sound hc
  obtain ⟨a, hread⟩ :=
    ((record_iff d hv.nodup c).1 hc).1.exists_sound hpart hu hnull
  exact ⟨a, (isPart_field hc hv.nodup hnames hpart hu hread).mapped build⟩

/-- The parts of a record under the decoder that its tag names are parts of the tagged record. -/
theorem isPart_of_tag {decode : Decoder γ} {decoder? : String → Option (Decoder γ)}
    {tag kind : String} {location : List String} (hfields : (fields.map Prod.fst).Nodup)
    (htag : Json.field? fields tag = some (.text kind)) (hdecode : decoder? kind = some decode)
    (hne : name ≠ tag) (h : IsPart decode (.record fields) [.field name] part location u a) :
    IsPart (V.tagged tag decoder?) (.record fields) [.field name] part (kind :: location) u a where
  at_path := h.at_path
  read := h.read
  accepts_iff {new} hnew := by
    obtain ⟨x, hx, -⟩ := Json.at?_cons_eq_some_iff.1 h.at_path
    have htag' : Json.field? (Keyed.put name new fields) tag = some (.text kind) := by
      rw [Json.field?_put, if_neg hne, htag]
    rw [← h.accepts_iff hnew, Json.setAt_field hx]
    simp only [tagged_iff tag decoder? (Keyed.nodup_put name new hfields), htag']
    constructor
    · rintro ⟨b, _, _, ⟨⟩, hdecode', hb⟩
      cases hdecode.symm.trans hdecode'
      exact ⟨b, hb⟩
    · rintro ⟨b, hb⟩
      exact ⟨b, kind, decode, rfl, hdecode, hb⟩
  reports {new p} hnew hp := by
    obtain ⟨x, hx, -⟩ := Json.at?_cons_eq_some_iff.1 h.at_path
    have htag' : Json.field? (Keyed.put name new fields) tag = some (.text kind) := by
      rw [Json.field?_put, if_neg hne, htag]
    have hmem := h.reports hnew hp
    rw [Json.setAt_field hx] at hmem ⊢
    exact tagged_problem (Keyed.nodup_put name new hfields) htag' hdecode hmem

end Fields

/-! ### Items of lists -/

section Items

variable {decode : Decoder α} {xs : List α} {i : Nat} {u : Json} {V : Validator}

open Validator.Lawful

theorem exists_getElem?_of_forall₂ {R : α → β → Prop} {as : List α} {bs : List β} {a : α}
    (h : List.Forall₂ R as bs) (hi : as[i]? = some a) : ∃ b, bs[i]? = some b ∧ R a b := by
  induction h generalizing i with
  | nil => cases hi
  | cons hfirst _ ih =>
    cases i with
    | zero =>
      cases hi
      exact ⟨_, rfl, hfirst⟩
    | succ i => exact ih hi

theorem forall₂_set {R : α → β → Prop} {as : List α} {bs : List β} {a : α} {b : β}
    (h : List.Forall₂ R as bs) (hab : R a b) (i : Nat) :
    List.Forall₂ R (as.set i a) (bs.set i b) := by
  induction h generalizing i with
  | nil => exact .nil
  | cons hfirst hrest ih =>
    cases i with
    | zero => exact .cons hab hrest
    | succ i => exact .cons hfirst (ih i)

/-- An item is a part of its list. -/
theorem exists_isPart_item [V.Lawful] {v : Json} (h : V.list decode v = .sound xs)
    (hu : Json.child? (.item i) v = some u) :
    ∃ x, IsPart (V.list decode) v [.item i] decode [toString i] u x := by
  obtain ⟨vs, rfl, hi⟩ := Json.child?_item_eq_some_iff.1 hu
  obtain ⟨_, ⟨⟩, hitems⟩ := (list_iff decode _ xs).1 h
  obtain ⟨x, -, hx⟩ := exists_getElem?_of_forall₂ hitems hi
  have hset (new : Json) : (vs.set i new)[i]? = some new :=
    List.getElem?_set_self (List.getElem?_eq_some_iff.1 hi).1
  refine ⟨x, Json.at?_cons_eq_some_iff.2 ⟨_, hi, rfl⟩, hx, fun {new} _ => ?_,
    fun {new p} _ hp => ?_⟩
  · rw [Json.setAt_item hi]
    simp only [list_iff decode]
    constructor
    · rintro ⟨ys, _, ⟨⟩, hys⟩
      obtain ⟨y, -, hy⟩ := exists_getElem?_of_forall₂ hys (hset new)
      exact ⟨y, hy⟩
    · rintro ⟨x, hx⟩
      exact ⟨xs.set i x, _, rfl, forall₂_set hitems hx i⟩
  · rw [Json.setAt_item hi]
    exact list_problem decode (hset new) hp

end Items

end Schema
end MetricQuery
