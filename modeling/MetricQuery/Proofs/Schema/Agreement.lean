import Mathlib.Data.Int.Basic
import MetricQuery.Proofs.Schema.Part

/-!
# Agreement of decoders

Two validators may differ in what they do with a number. Where they take the same numbers for the
same values, schemas built from them accept the same documents as the same values, and what they
accept is as shallow as the schema. `Agree` passes from the parts of a schema to the whole.
-/

namespace MetricQuery

/-- Integers of 64 bits, with or without a sign. -/
def Schema.FitsWord (n : ℤ) : Prop := -wordBound ≤ n ∧ n < 2 * wordBound

instance (n : ℤ) : Decidable (Schema.FitsWord n) :=
  inferInstanceAs (Decidable (-Schema.wordBound ≤ n ∧ n < 2 * Schema.wordBound))

/-! ### Shallow and narrow documents -/

namespace Json

variable {v u : Json} {n : ℕ}

/-- No path into a document is longer than `n`. -/
def Shallow (n : ℕ) (v : Json) : Prop := ∀ path u, at? path v = some u → path.length ≤ n

/-- All integers in a document have 64 bits. -/
def Narrow (v : Json) : Prop := ∀ path i, at? path v = some (.int i) → Schema.FitsWord i

theorem Narrow.child {step : Step} (h : v.Narrow) (hu : child? step v = some u) : u.Narrow :=
  fun path i hi => h (step :: path) i (at?_cons_eq_some_iff.2 ⟨u, hu, hi⟩)

theorem Narrow.item {vs : List Json} (h : (list vs).Narrow) (hv : v ∈ vs) : v.Narrow := by
  obtain ⟨i, hi⟩ := List.mem_iff_getElem?.1 hv
  have hchild : child? (.item i) (.list vs) = some v := hi
  exact h.child hchild

theorem Narrow.field {fields : Fields} {name : String} (h : (record fields).Narrow)
    (hv : field? fields name = some v) : v.Narrow :=
  have hchild : child? (.field name) (.record fields) = some v := hv
  h.child hchild

theorem narrow_of_child (hself : ∀ i, v = .int i → Schema.FitsWord i)
    (h : ∀ step u, child? step v = some u → u.Narrow) : v.Narrow := by
  intro path i hi
  cases path with
  | nil => exact hself i (Option.some.inj hi)
  | cons step path =>
    obtain ⟨x, hx, hxi⟩ := at?_cons_eq_some_iff.1 hi
    exact h step x hx path i hxi

theorem Shallow.mono {n' : ℕ} (h : v.Shallow n) (hle : n ≤ n') : v.Shallow n' :=
  fun path u hu => Nat.le_trans (h path u hu) hle

theorem shallow_succ (h : ∀ step u, child? step v = some u → u.Shallow n) :
    v.Shallow (n + 1) := by
  intro path u hu
  cases path with
  | nil => exact Nat.zero_le _
  | cons step path =>
    obtain ⟨x, hx, hux⟩ := at?_cons_eq_some_iff.1 hu
    exact Nat.succ_le_succ (h step x hx path u hux)

theorem shallow_list {vs : List Json} (h : ∀ v ∈ vs, v.Shallow n) : (list vs).Shallow (n + 1) := by
  refine shallow_succ fun step u hu => ?_
  cases step with
  | field name => cases hu
  | item i => exact h u (List.mem_of_getElem? hu)

theorem shallow_record {fields : Fields}
    (h : ∀ name u, field? fields name = some u → u.Shallow n) :
    (record fields).Shallow (n + 1) := by
  refine shallow_succ fun step u hu => ?_
  cases step with
  | field name => exact h name u hu
  | item i => cases hu

theorem IsAtom.shallow (h : v.IsAtom) : v.Shallow n := by
  intro path u hu
  rw [h.eq_nil_of_at? hu]
  exact Nat.zero_le n

end Json

namespace Schema

open Checked Validator.Lawful

variable {α β γ : Type} {n : ℕ}

/-! ### Decoders -/

/-- Of narrow documents with distinct names, the first decoder accepts only shallow ones, and what
it accepts the second accepts as the same. -/
def Agree (n : ℕ) (decode decode' : Decoder α) : Prop :=
  ∀ v a, v.Narrow → v.Distinct → decode v = .sound a → v.Shallow n ∧ decode' v = .sound a

variable {decode decode' : Decoder α} {second second' : Decoder β}

theorem Agree.mono {n' : ℕ} (h : Agree n decode decode') (hle : n ≤ n') :
    Agree n' decode decode' := by
  intro v a hnarrow hdistinct ha
  obtain ⟨hshallow, ha'⟩ := h v a hnarrow hdistinct ha
  exact ⟨hshallow.mono hle, ha'⟩

theorem Agree.map (h : Agree n decode decode') (f : α → β) :
    Agree n (fun v => f <$> decode v) (fun v => f <$> decode' v) := by
  intro v b hnarrow hdistinct hb
  obtain ⟨a, ha, rfl⟩ := map_eq_sound_iff.1 hb
  obtain ⟨hshallow, ha'⟩ := h v a hnarrow hdistinct ha
  exact ⟨hshallow, map_eq_sound_iff.2 ⟨a, ha', rfl⟩⟩

variable {V V' : Validator} [V.Lawful] [V'.Lawful]

/-- The second validator takes every number of narrow documents that the first one takes, and as the
same. -/
structure Validator.Follows (V V' : Validator) : Prop where
  float {v : Json} {x : Binary64} (hv : v.Narrow) (h : V.float v = .sound x) :
    V'.float v = .sound x
  integer {v : Json} {n : ℤ} (hv : v.Narrow) (h : V.integer v = .sound n) :
    V'.integer v = .sound n

omit [V'.Lawful] in
theorem Validator.Follows.agree_float (h : V.Follows V') : Agree 0 V.float V'.float :=
  fun _ _ hv _ hx => ⟨(float_isAtom hx).shallow, h.float hv hx⟩

omit [V'.Lawful] in
theorem Validator.Follows.agree_integer (h : V.Follows V') : Agree 0 V.integer V'.integer :=
  fun _ _ hv _ hn => ⟨(integer_isAtom hn).shallow, h.integer hv hn⟩

theorem agree_text : Agree 0 V.text V'.text := by
  intro v s _ _ h
  cases (text_iff v s).1 h
  exact ⟨Json.IsAtom.shallow trivial, (text_iff _ s).2 rfl⟩

theorem agree_member (ofName? : String → Option α) :
    Agree 0 (V.member ofName?) (V'.member ofName?) := by
  intro v a _ _ h
  obtain ⟨s, rfl, hs⟩ := (member_iff ofName? v a).1 h
  exact ⟨Json.IsAtom.shallow trivial, (member_iff ofName? _ a).2 ⟨s, rfl, hs⟩⟩

theorem Agree.list (h : Agree n decode decode') :
    Agree (n + 1) (V.list decode) (V'.list decode') := by
  intro v xs hnarrow hdistinct hxs
  obtain ⟨vs, rfl, hitems⟩ := (list_iff decode v xs).1 hxs
  have hmem := (List.forall₂_and_left vs xs).2 ⟨fun v (hv : v ∈ vs) => hv, hitems⟩
  have hagree : List.Forall₂ (fun v a => v.Shallow n ∧ decode' v = .sound a) vs xs :=
    hmem.imp fun v a ha => h v a (hnarrow.item ha.1) (hdistinct.item ha.1) ha.2
  constructor
  · refine Json.shallow_list fun v hv => ?_
    obtain ⟨i, hi⟩ := List.mem_iff_getElem?.1 hv
    obtain ⟨a, -, hshallow, -⟩ := exists_getElem?_of_forall₂ hagree hi
    exact hshallow
  · exact (list_iff decode' _ xs).2 ⟨vs, rfl, hagree.imp fun _ _ ha => ha.2⟩

theorem Agree.pair (h : Agree n decode decode') (hsecond : Agree n second second') :
    Agree (n + 1) (V.pair decode second) (V'.pair decode' second') := by
  intro v ab hnarrow hdistinct hab
  obtain ⟨w, x, rfl, hw, hx⟩ := (pair_iff decode second v ab).1 hab
  obtain ⟨hw, hw'⟩ := h w _ (hnarrow.item (by simp)) (hdistinct.item (by simp)) hw
  obtain ⟨hx, hx'⟩ := hsecond x _ (hnarrow.item (by simp)) (hdistinct.item (by simp)) hx
  refine ⟨Json.shallow_list ?_, (pair_iff decode' second' _ ab).2 ⟨w, x, rfl, hw', hx'⟩⟩
  simp [hw, hx]

theorem agree_labels : Agree 1 V.labels V'.labels := by
  intro v ls _ hdistinct h
  cases eq_of_labels h hdistinct
  refine ⟨Json.shallow_record fun name u hu => ?_, labels_entries ls⟩
  obtain ⟨label, -, hlabel⟩ := List.mem_map.1 (Json.exists_mem_of_field? hu)
  cases hlabel
  exact Json.IsAtom.shallow trivial

/-! ### Records -/

/-- The same fields are declared, with decoders that agree. -/
inductive Declared.Agree (n : ℕ) : {γ : Type} → Declared γ → Declared γ → Prop where
  | none : Agree n .none .none
  | required {α β : Type} (name : String) {decode decode' : Decoder α} {d d' : Declared β}
    (h : Schema.Agree n decode decode') (hrest : Agree n d d') :
    Agree n (.required name decode d) (.required name decode' d')
  | nullable {α β : Type} (name : String) {decode decode' : Decoder α} {d d' : Declared β}
    (h : Schema.Agree n decode decode') (hrest : Agree n d d') :
    Agree n (.nullable name decode d) (.nullable name decode' d')

namespace Declared.Agree

variable {d d' : Declared γ} {fields : Json.Fields} {c : γ}

theorem names_eq (h : d.Agree n d') : d'.names = d.names := by
  induction h with
  | none => rfl
  | required name _ _ ih | nullable name _ _ ih => exact congrArg (name :: ·) ih

theorem holds (h : d.Agree n d') (hnarrow : (Json.record fields).Narrow)
    (hdistinct : (Json.record fields).Distinct) (hholds : d.Holds fields c) :
    d'.Holds fields c := by
  induction h with
  | none => trivial
  | required name h _ ih =>
    obtain ⟨⟨v, hv, hread⟩, hrest⟩ := hholds
    exact ⟨⟨v, hv, (h v _ (hnarrow.field hv) (hdistinct.field hv) hread).2⟩, ih hrest⟩
  | nullable name h _ ih =>
    obtain ⟨hfirst, hrest⟩ := hholds
    refine ⟨rel_imp (fun v a hgiven hread => ?_) hfirst, ih hrest⟩
    have hv := Json.field?_of_given? hgiven
    exact (h v a (hnarrow.field hv) (hdistinct.field hv) hread).2

theorem shallow (h : d.Agree n d') (hnarrow : (Json.record fields).Narrow)
    (hdistinct : (Json.record fields).Distinct) (hholds : d.Holds fields c) :
    ∀ name ∈ d.names, ∀ u, Json.field? fields name = some u → u.Shallow n := by
  induction h with
  | none => exact nofun
  | required name h _ ih =>
    obtain ⟨⟨v, hv, hread⟩, hrest⟩ := hholds
    refine List.forall_mem_cons.2 ⟨fun u hu => ?_, ih hrest⟩
    cases hv.symm.trans hu
    exact (h v _ (hnarrow.field hv) (hdistinct.field hv) hread).1
  | nullable name h _ ih =>
    obtain ⟨hfirst, hrest⟩ := hholds
    refine List.forall_mem_cons.2 ⟨fun u hu => ?_, ih hrest⟩
    by_cases hnull : u = .null
    · subst hnull
      exact Json.IsAtom.shallow trivial
    · rw [Json.given?_of_field? hu hnull] at hfirst
      obtain ⟨a, -, hread⟩ := exists_of_rel_some hfirst
      exact (h u a (hnarrow.field hu) (hdistinct.field hu) hread).1

theorem record (h : d.Agree n d') : Schema.Agree (n + 1) (V.record d) (V'.record d') := by
  intro v c hnarrow hdistinct hc
  obtain ⟨fields, rfl⟩ := exists_record_of_sound hc
  obtain ⟨hholds, hdeclared⟩ := (record_iff d hdistinct.nodup c).1 hc
  constructor
  · refine Json.shallow_record fun name u hu => ?_
    exact h.shallow hnarrow hdistinct hholds name
      (hdeclared _ (Json.exists_mem_of_field? hu)) u hu
  · refine (record_iff d' hdistinct.nodup c).2 ⟨h.holds hnarrow hdistinct hholds, ?_⟩
    rwa [h.names_eq]

end Declared.Agree

/-- Tagged records agree if the decoders of each tag do. -/
theorem agree_tagged {tag : String} {decoder? decoder?' : String → Option (Decoder α)}
    (h : ∀ name decode, decoder? name = some decode →
      ∃ decode', decoder?' name = some decode' ∧ Agree n decode decode') :
    Agree n (V.tagged tag decoder?) (V'.tagged tag decoder?') := by
  intro v a hnarrow hdistinct ha
  obtain ⟨fields, rfl⟩ := exists_tagged_of_sound ha
  obtain ⟨name, decode, htag, hdecode, hread⟩ := (tagged_iff tag decoder? hdistinct.nodup a).1 ha
  obtain ⟨decode', hdecode', hagree⟩ := h name decode hdecode
  obtain ⟨hshallow, hread'⟩ := hagree _ a hnarrow hdistinct hread
  exact ⟨hshallow,
    (tagged_iff tag decoder?' hdistinct.nodup a).2 ⟨name, decode', htag, hdecode', hread'⟩⟩

end Schema
end MetricQuery
