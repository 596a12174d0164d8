import Mathlib.Data.List.Perm.Subperm
import MetricQuery.Proofs.Duration.RoundTrip

/-!
# The canonical form of durations

The texts that write a duration fall into classes: two of them are equivalent when their pieces are
the same up to the order and the zeros in front. The text that a duration is normalized to is the
one canonical text of its class.
-/

namespace MetricQuery
namespace Piece

/-- A text is a non-empty row of pieces in the order of the units, from years to milliseconds, with
numbers without superfluous zeros. -/
structure IsCanonical (ps : List Piece) (cs : List Char) : Prop where
  nonempty : ps ≠ []
  plain : ∀ p ∈ ps, Digit.IsPlain p.digits
  ordered : (ps.map unit).Sublist TimeUnit.all
  flatMap_text : ps.flatMap text = cs

/-- Pieces of one unit whose digits are the same but for zeros in front. -/
def Alike (p q : Piece) : Prop := p.unit = q.unit ∧ Digit.Alike p.digits q.digits

/-- Rows of pieces that are the same up to the order and the zeros in front. -/
def Equivalent (ps qs : List Piece) : Prop := ∃ qs', qs'.Perm qs ∧ List.Forall₂ Alike ps qs'

/-! ### Equivalent rows -/

theorem alike_iff {p q : Piece} (hp : p.WellFormed) (hq : q.WellFormed) :
    p.Alike q ↔ p.duration = q.duration := by
  rw [Alike, Digit.alike_iff hp.1 hp.2 hq.1 hq.2, duration, duration, Duration.mk.injEq, and_comm]

theorem forall₂_alike_iff {ps qs : List Piece} (hps : ∀ p ∈ ps, p.WellFormed)
    (hqs : ∀ q ∈ qs, q.WellFormed) :
    List.Forall₂ Alike ps qs ↔ ps.map duration = qs.map duration := by
  induction ps generalizing qs with
  | nil => cases qs <;> simp
  | cons p ps ih =>
    obtain ⟨hp, hps⟩ := List.forall_mem_cons.1 hps
    cases qs with
    | nil => simp
    | cons q qs =>
      obtain ⟨hq, hqs⟩ := List.forall_mem_cons.1 hqs
      rw [List.forall₂_cons, alike_iff hp hq, ih hps hqs, List.map_cons, List.map_cons,
        List.cons.injEq]

/-- Rows of pieces are equivalent exactly when they write the same durations in some order. -/
theorem equivalent_iff {ps qs : List Piece} (hps : ∀ p ∈ ps, p.WellFormed)
    (hqs : ∀ q ∈ qs, q.WellFormed) :
    Equivalent ps qs ↔ (ps.map duration).Perm (qs.map duration) := by
  constructor
  · rintro ⟨qs', hperm, halike⟩
    rw [forall₂_alike_iff hps fun q hq => hqs q (hperm.mem_iff.1 hq)] at halike
    exact halike ▸ hperm.map duration
  · intro hperm
    -- The durations of `ps` lead back to pieces of `qs` in the order of `ps`.
    have hqs' : List.Forall₂ (fun d q => d = q.duration) (qs.map duration) qs :=
      List.forall₂_map_left_iff.2 (List.forall₂_same.2 fun _ _ => rfl)
    obtain ⟨qs', heq, hqs'⟩ := List.perm_comp_forall₂ hperm hqs'
    refine ⟨qs', hqs', (forall₂_alike_iff hps fun q hq => hqs q (hqs'.mem_iff.1 hq)).2 ?_⟩
    rw [← List.forall₂_eq_eq_eq]
    exact List.forall₂_map_right_iff.2 heq

end Piece

namespace Duration
open Piece

/-! ### Canonical texts -/

theorem sublist_all {us : List TimeUnit} (h : us.Pairwise (·.rank < ·.rank)) :
    us.Sublist TimeUnit.all := by
  have : Std.Antisymm fun u v : TimeUnit => u.rank ≤ v.rank :=
    ⟨fun u v huv hvu => TimeUnit.rank_injective (Nat.le_antisymm huv hvu)⟩
  have hnodup : us.Nodup := h.imp fun hlt heq => absurd (heq ▸ hlt) (Nat.lt_irrefl _)
  exact List.sublist_of_subperm_of_pairwise (hnodup.subperm fun u _ => u.mem_all)
    (h.imp Nat.le_of_lt) (TimeUnit.pairwise_all.imp Nat.le_of_lt)

variable {ps qs : List Piece} {cs ds : List Char}

theorem nodup_of_isDecomposition (h : IsDecomposition ps cs) :
    ((ps.map Piece.duration).map Duration.unit).Nodup := by
  rw [List.map_map]
  exact h.distinct

/-- What is written for a decomposed text is canonical. -/
theorem isCanonical_write (h : IsDecomposition ps cs) :
    IsCanonical ((sort (ps.map Piece.duration)).map ofDuration)
      (write (ps.map Piece.duration)).toList := by
  refine ⟨fun hnil => h.nonempty ?_, fun p hp => ?_, ?_, ?_⟩
  · have hperm := sort_perm (ps.map Piece.duration)
    rw [List.map_eq_nil_iff.1 hnil] at hperm
    exact List.map_eq_nil_iff.1 hperm.nil_eq.symm
  · obtain ⟨d, -, rfl⟩ := List.mem_map.1 hp
    exact Digit.isPlain_write d.amount
  · rw [map_unit_ofDuration]
    exact sublist_all (List.pairwise_map.2 (pairwise_sort_of_nodup (nodup_of_isDecomposition h)))
  · simpa using (row_write (ps.map Piece.duration)).flatMap_append.symm

/-- Decomposed texts are written alike exactly when their pieces are equivalent. -/
theorem write_eq_write_iff_equivalent (hps : IsDecomposition ps cs) (hqs : IsDecomposition qs ds) :
    write (ps.map Piece.duration) = write (qs.map Piece.duration) ↔ Equivalent ps qs := by
  rw [write_eq_write_iff, ← sort_eq_sort_iff,
    equivalent_iff (fun p hp => (hps.sound p hp).1) fun q hq => (hqs.sound q hq).1]
  constructor
  · intro h
    exact (sort_perm _).symm.trans (h ▸ sort_perm _)
  · intro h
    rw [eq_sort_iff (nodup_of_isDecomposition hqs)]
    exact ⟨(sort_perm _).trans h, pairwise_sort_of_nodup (nodup_of_isDecomposition hps)⟩

end Duration

namespace Value
open Piece Duration

/-- A text is normalized to what is written for the pieces that it decomposes into. -/
theorem durationText_eq_ok_iff {t r : String} :
    (text t).durationText = .ok r ↔
      ∃ ps, IsDecomposition ps t.toList ∧ r = write (ps.map Piece.duration) := by
  constructor
  · intro h
    obtain ⟨ds, hread, hformat⟩ := bind_eq_ok.1 h
    obtain ⟨ps, hps, rfl⟩ := read_eq_ok_iff.1 (mapError_eq_ok_iff.1 hread)
    exact ⟨ps, hps, Except.ok.inj (hformat.symm.trans (format_of_isDecomposition hps))⟩
  · rintro ⟨ps, hps, rfl⟩
    rw [durationText, durations, read_of_isDecomposition hps]
    exact format_of_isDecomposition hps

/-- The canonical text of a duration writes the same durations. -/
theorem durations_of_durationText {t r : String} (h : (text t).durationText = .ok r) :
    (text r).durations = (text t).durations := by
  obtain ⟨ps, hps, rfl⟩ := durationText_eq_ok_iff.1 h
  have hne : ps.map Piece.duration ≠ [] := fun hnil => hps.nonempty (List.map_eq_nil_iff.1 hnil)
  rw [durations, durations, read_of_isDecomposition hps,
    read_write hne (amount_lt_of_isDecomposition hps) (nodup_of_isDecomposition hps)]
  rfl

/-- **Normalized durations are a complete canonical form.** The normalized text of a duration is
canonical, is normalized to itself and has the total of the duration that it stands for. Two texts
are normalized to the same text exactly when their pieces are the same up to the order and the zeros
in front. -/
theorem durationText_canonical {t u r s : String} (ht : (text t).durationText = .ok r)
    (hu : (text u).durationText = .ok s) :
    (∃ ps, IsCanonical ps r.toList) ∧ (text r).durationText = .ok r ∧
    (∃ ds es, (text r).durations = .ok ds ∧ (text t).durations = .ok es ∧
      totalMilliseconds ds = totalMilliseconds es) ∧
    ∃ ps qs, IsDecomposition ps t.toList ∧ IsDecomposition qs u.toList ∧
      (r = s ↔ Equivalent ps qs) := by
  have hread := durations_of_durationText ht
  obtain ⟨ps, hps, rfl⟩ := durationText_eq_ok_iff.1 ht
  obtain ⟨qs, hqs, rfl⟩ := durationText_eq_ok_iff.1 hu
  obtain ⟨ds, hds, -⟩ := bind_eq_ok.1 ht
  refine ⟨⟨_, isCanonical_write hps⟩, ?_, ⟨ds, ds, hread.trans hds, hds, rfl⟩, ps, qs, hps, hqs,
    write_eq_write_iff_equivalent hps hqs⟩
  rw [durationText, hread]
  exact ht

/-- Five seconds before a minute. -/
def secondsFirst : List Piece := [⟨['5'], .seconds⟩, ⟨['0', '1'], .minutes⟩]

/-- A minute before five seconds. -/
def secondsLast : List Piece := [⟨['1'], .minutes⟩, ⟨['0', '0', '5'], .seconds⟩]

/-- The same length in seconds alone. -/
def secondsOnly : List Piece := [⟨['6', '5'], .seconds⟩]

theorem isDecomposition_minutes : IsDecomposition secondsFirst "5s01m".toList ∧
    IsDecomposition secondsLast "1m005s".toList ∧ IsDecomposition secondsOnly "65s".toList := by
  unfold secondsFirst secondsLast secondsOnly
  refine ⟨⟨by decide, ?_, by decide, rfl⟩, ⟨by decide, ?_, by decide, rfl⟩,
    ⟨by decide, ?_, by decide, rfl⟩⟩ <;> simp [Sound, WellFormed]

/-- The order and the zeros in front do not count; another split of the same length does. -/
theorem durationText_canonical_minutes :
    (text "5s01m").durationText = .ok "1m5s" ∧ (text "1m005s").durationText = .ok "1m5s" ∧
    (text "65s").durationText = .ok "65s" ∧ Equivalent secondsFirst secondsLast ∧
    ¬ Equivalent secondsFirst secondsOnly := by
  obtain ⟨hfirst, hlast, honly⟩ := isDecomposition_minutes
  have hfirst' : (text "5s01m").durationText = .ok "1m5s" :=
    durationText_eq_ok_iff.2 ⟨_, hfirst, rfl⟩
  have hlast' : (text "1m005s").durationText = .ok "1m5s" :=
    durationText_eq_ok_iff.2 ⟨_, hlast, rfl⟩
  have honly' : (text "65s").durationText = .ok "65s" :=
    durationText_eq_ok_iff.2 ⟨_, honly, rfl⟩
  obtain ⟨-, -, -, ps, qs, hps, hqs, hiff⟩ := durationText_canonical hfirst' hlast'
  obtain ⟨-, -, -, ps', qs', hps', hqs', hiff'⟩ := durationText_canonical hfirst' honly'
  obtain rfl := hps.unique hfirst
  obtain rfl := hqs.unique hlast
  obtain rfl := hps'.unique hfirst
  obtain rfl := hqs'.unique honly
  exact ⟨hfirst', hlast', honly', hiff.1 rfl, fun h => absurd (hiff'.2 h) (by decide)⟩

end Value
end MetricQuery
