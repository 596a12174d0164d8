import MetricQuery.Proofs.Response.Decode
import MetricQuery.Proofs.Schema.Agreement

/-!
# Agreement of the sources of answers

An answer may be decoded by different validators as a text and as a value. If one takes the numbers
that the other one takes, it accepts the same documents as the same answers (`Response.agree`), and
what it accepts is as shallow as the schema of answers.
-/

namespace MetricQuery

open Schema

variable {V V' : Validator} [V.Lawful] [V'.Lawful]

theorem Sample.agree (h : V.Follows V') : Agree 1 (Sample.decode V) (Sample.decode V') :=
  (h.agree_float.pair agree_text).map fun p : Binary64 × String => Sample.mk p.1 p.2

theorem LabeledSample.agree (h : V.Follows V') : Agree 2 (decode V) (decode V') := by
  have hdeclared : (declared V).Agree 1 (declared V') :=
    .required _ agree_labels (.required _ (Sample.agree h) .none)
  exact hdeclared.record.map _

theorem Series.agree (h : V.Follows V') : Agree 3 (decode V) (decode V') := by
  have hdeclared : (declared V).Agree 2 (declared V') :=
    .required _ (agree_labels.mono (by decide)) (.required _ (Sample.agree h).list .none)
  exact hdeclared.record.map _

theorem Timings.agree (h : V.Follows V') : Agree 1 (decode V) (decode V') := by
  have hdeclared : (declared V).Agree 0 (declared V') :=
    .required _ h.agree_float (.required _ h.agree_float (.required _ h.agree_float
      (.required _ h.agree_float (.required _ h.agree_float (.required _ h.agree_float .none)))))
  exact hdeclared.record.map _

theorem SampleCounts.agree (h : V.Follows V') : Agree 3 (decode V) (decode V') := by
  have hcount := h.agree_integer.mono (Nat.zero_le 2)
  have hdeclared : (declared V).Agree 2 (declared V') :=
    .nullable _ (h.agree_float.pair h.agree_integer).list
      (.required _ hcount (.required _ hcount .none))
  exact hdeclared.record.map _

theorem Stats.agree (h : V.Follows V') : Agree 4 (decode V) (decode V') := by
  have hdeclared : (declared V).Agree 3 (declared V') :=
    .required _ ((Timings.agree h).mono (by decide)) (.required _ (SampleCounts.agree h) .none)
  exact hdeclared.record.map _

theorem Result.exists_decoder?_agree (h : V.Follows V') {name : String} {d : Decoder Result}
    (hd : decoder? V name = some d) : ∃ d', decoder? V' name = some d' ∧ Agree 4 d d' := by
  unfold decoder? at hd
  split at hd
  case h_1 =>
    cases hd
    exact ⟨_, rfl, ((LabeledSample.agree h).list.map vector).mono (by decide)⟩
  case h_2 =>
    cases hd
    exact ⟨_, rfl, (Series.agree h).list.map matrix⟩
  case h_3 =>
    cases hd
    exact ⟨_, rfl, ((Sample.agree h).map scalar).mono (by decide)⟩
  case h_4 =>
    cases hd
    exact ⟨_, rfl, ((Sample.agree h).map string).mono (by decide)⟩
  case h_5 => cases hd

theorem Data.agree (h : V.Follows V') : Agree 5 (decode V) (decode V') := by
  refine agree_tagged fun kind decode hdecode => ?_
  obtain ⟨decodeResult, hkind, rfl⟩ := Option.map_eq_some_iff.1 hdecode
  obtain ⟨decodeResult', hkind', hagree⟩ := Result.exists_decoder?_agree h hkind
  have hdeclared : (declared V kind decodeResult).Agree 4 (declared V' kind decodeResult') :=
    .required _ ((agree_member _).mono (Nat.zero_le 4))
      (.required _ hagree (.nullable _ (Stats.agree h) .none))
  exact ⟨decodeAs V' kind decodeResult', Option.map_eq_some_iff.2 ⟨decodeResult', hkind', rfl⟩,
    hdeclared.record.map _⟩

theorem Response.agree (h : V.Follows V') : Agree 6 (decode V) (decode V') := by
  have htext : Agree 5 V.text V'.text := agree_text.mono (Nat.zero_le 5)
  have htexts : Agree 5 (V.list V.text) (V'.list V'.text) := agree_text.list.mono (by decide)
  have hdeclared : (declared V).Agree 5 (declared V') :=
    .required _ ((agree_member _).mono (Nat.zero_le 5)) (.nullable _ (Data.agree h)
      (.nullable _ htext (.nullable _ htext (.nullable _ htexts (.nullable _ htexts .none)))))
  exact hdeclared.record.map _

end MetricQuery
