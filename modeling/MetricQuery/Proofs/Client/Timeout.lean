import Mathlib.Algebra.BigOperators.Group.List.Basic
import MetricQuery.Proofs.Client.Configured
import MetricQuery.Proofs.Number.Value

/-!
# The limit of timeouts

The total of a compound duration is a sum of milliseconds, whatever the order of the durations. In
seconds it is a finite floating-point number, unless the milliseconds reach the middle between the
largest such number and the power of two above it. A client is made from every timeout that can be
read and stays below that limit.
-/

namespace MetricQuery

namespace Duration

/-! ### Totals in milliseconds -/

theorem totalMilliseconds_eq_sum (ds : List Duration) :
    totalMilliseconds ds = (ds.map milliseconds).sum := rfl

theorem totalMilliseconds_singleton (d : Duration) :
    totalMilliseconds [d] = d.amount * d.unit.milliseconds := by
  rw [totalMilliseconds_eq_sum, List.map_singleton, List.sum_singleton, milliseconds]

theorem totalMilliseconds_append (ds es : List Duration) :
    totalMilliseconds (ds ++ es) = totalMilliseconds ds + totalMilliseconds es := by
  simp only [totalMilliseconds_eq_sum, List.map_append, List.sum_append]

theorem totalMilliseconds_of_perm {ds es : List Duration} (h : ds.Perm es) :
    totalMilliseconds ds = totalMilliseconds es := by
  rw [totalMilliseconds_eq_sum, totalMilliseconds_eq_sum]
  exact (h.map milliseconds).sum_eq

end Duration

/-! ### Totals in seconds -/

theorem twoTo_eq_pow (n : Nat) : twoTo n = 2 ^ n := rfl

/-- A magnitude that is divided by a positive whole number does not become too large. -/
theorem Magnitude.exists_round?_div (m : Magnitude) {k : Nat} (hk : 0 < k) :
    ∃ m', round? m.units (unitsPerOne * k) = some m' := by
  refine Option.ne_none_iff_exists'.1 fun hnone => ?_
  have hquotient : ((m.units : ℕ) : ℚ) / ((unitsPerOne * k : ℕ) : ℚ) = m.value / k := by
    rw [value, Nat.cast_mul, div_div]
  have hlast : (2 : ℚ) ^ 970 < 2 ^ 971 := pow_lt_pow_right₀ one_lt_two (by decide)
  have hlt : m.value / k < 2 ^ 1024 - 2 ^ 970 := calc
    m.value / k ≤ m.value := div_le_self m.value_nonneg (Nat.one_le_cast.2 hk)
    _ ≤ 2 ^ 1024 - 2 ^ 971 := m.value_le
    _ < 2 ^ 1024 - 2 ^ 970 := sub_lt_sub_left hlast _
  have hpos : 0 < unitsPerOne * k := Nat.mul_pos (twoTo_pos 1074) hk
  rw [round?_eq_none_iff_le hpos, hquotient] at hnone
  exact absurd hnone (not_le.2 hlt)

theorem Binary64.exists_divNat (negative : Bool) (m : Magnitude) {k : Nat} (hk : 0 < k) :
    ∃ m', (finite negative m).divNat k = finite negative m' := by
  obtain ⟨m', hm'⟩ := m.exists_round?_div hk
  refine ⟨m', ?_⟩
  rw [divNat, ofRatio_eq, hm', Option.elim_some]

namespace Duration

theorem totalSeconds?_eq_none_iff {ds : List Duration} :
    totalSeconds? ds = none ↔ 2 ^ 1024 - 2 ^ 970 ≤ totalMilliseconds ds := by
  rw [totalSeconds?, Option.map_eq_none_iff, Binary64.ofInt?_eq_none_iff, Int.natAbs_natCast,
    twoTo_eq_pow, twoTo_eq_pow]

/-- What is no error is finite. -/
theorem exists_finite_of_totalSeconds? {ds : List Duration} {x : Binary64}
    (h : totalSeconds? ds = some x) : ∃ m, x = .finite false m := by
  obtain ⟨y, hy, rfl⟩ := Option.map_eq_some_iff.1 h
  obtain ⟨m, -, rfl⟩ := Option.map_eq_some_iff.1 hy
  have hsign : decide ((totalMilliseconds ds : Int) < 0) = false :=
    decide_eq_false (Int.not_lt.2 (Int.natCast_nonneg _))
  rw [hsign]
  exact Binary64.exists_divNat false m (by decide)

end Duration

open Duration

theorem totalSeconds_eq_error_iff {ds : List Duration} {e : Error} :
    totalSeconds ds = .error e ↔
      2 ^ 1024 - 2 ^ 970 ≤ totalMilliseconds ds ∧ e = .largeInteger := by
  rw [← totalSeconds?_eq_none_iff, totalSeconds_eq]
  cases h : totalSeconds? ds with
  | none => simp [h, eq_comm]
  | some x => simp [h]

/-- A total that is not too long is finite. -/
theorem exists_totalSeconds_eq_ok {ds : List Duration}
    (h : totalMilliseconds ds < 2 ^ 1024 - 2 ^ 970) :
    ∃ m, totalSeconds ds = .ok (.finite false m) := by
  obtain ⟨x, hx⟩ := Option.ne_none_iff_exists'.1 fun hnone =>
    Nat.not_le.2 h (totalSeconds?_eq_none_iff.1 hnone)
  obtain ⟨m, rfl⟩ := exists_finite_of_totalSeconds? hx
  exact ⟨m, totalSeconds_of_totalSeconds? hx⟩

/-! ### Clients -/

namespace Client

variable {baseUrl t : String} {usePost : Bool}

/-- What a client is not made for: a text that is no duration, and a total that is too long. -/
theorem make_eq_error_iff (ht : t ≠ "") {e : Error} :
    make baseUrl (some t) usePost = .error e ↔ (Value.text t).durations = .error e ∨
      ∃ ds, (Value.text t).durations = .ok ds ∧ 2 ^ 1024 - 2 ^ 970 ≤ totalMilliseconds ds ∧
        e = .largeInteger := by
  rw [make, map_eq_error, readTimeout_some ht, bind_eq_error]
  simp only [totalSeconds_eq_error_iff]

/-- **Totals do not depend on the order, and the one limit of timeouts is that of floating-point
numbers.** The total of a compound duration is determined by its parts and is the same for every
permutation of it. In seconds it is an overflow from `2 ^ 1024 - 2 ^ 970` milliseconds on, which are
no longer rounded to a finite number, and a finite number below. So a timeout that is not empty is
refused exactly when it cannot be read or its total reaches that limit. -/
theorem timeout_limit :
    (∀ d : Duration, totalMilliseconds [d] = d.amount * d.unit.milliseconds) ∧
    (∀ ds es : List Duration,
      totalMilliseconds (ds ++ es) = totalMilliseconds ds + totalMilliseconds es) ∧
    (∀ ds es : List Duration, ds.Perm es → totalMilliseconds ds = totalMilliseconds es) ∧
    (∀ ds : List Duration, (∃ e, totalSeconds ds = .error e ∧ e.kind = .overflow) ↔
      2 ^ 1024 - 2 ^ 970 ≤ totalMilliseconds ds) ∧
    (∀ ds : List Duration, totalMilliseconds ds < 2 ^ 1024 - 2 ^ 970 →
      ∃ m, totalSeconds ds = .ok (.finite false m)) ∧
    ∀ (baseUrl t : String) (usePost : Bool) (e : Error), t ≠ "" →
      (make baseUrl (some t) usePost = .error e ↔ (Value.text t).durations = .error e ∨
        ∃ ds, (Value.text t).durations = .ok ds ∧ 2 ^ 1024 - 2 ^ 970 ≤ totalMilliseconds ds ∧
          e = .largeInteger) := by
  refine ⟨totalMilliseconds_singleton, totalMilliseconds_append,
    fun _ _ hperm => totalMilliseconds_of_perm hperm, fun ds => ?_,
    fun _ hlt => exists_totalSeconds_eq_ok hlt, fun _ _ _ _ ht => make_eq_error_iff ht⟩
  simp only [totalSeconds_eq_error_iff]
  constructor
  · rintro ⟨e, ⟨hle, -⟩, -⟩
    exact hle
  · exact fun hle => ⟨.largeInteger, ⟨hle, rfl⟩, rfl⟩

theorem durations_write_millis {n : Nat} (h : n < tenTo 4300) :
    (Value.text (write [⟨n, .millis⟩])).durations = .ok [⟨n, .millis⟩] := by
  have hamount : ∀ d ∈ [Duration.mk n .millis], d.amount < tenTo 4300 := by simpa using h
  rw [Value.durations, read_write (List.cons_ne_nil _ _) hamount (List.nodup_singleton _)]
  rfl

theorem write_millis_ne_empty {n : Nat} (h : n < tenTo 4300) : write [⟨n, .millis⟩] ≠ "" := by
  intro hempty
  have hread := durations_write_millis h
  rw [hempty] at hread
  cases hread

/-- Each unit has its weight, seconds may stand before minutes, and one millisecond decides whether
a client is made. -/
theorem timeout_limit_millisecond :
    totalMilliseconds [⟨1, .millis⟩, ⟨2, .seconds⟩, ⟨3, .minutes⟩, ⟨4, .hours⟩, ⟨5, .days⟩,
      ⟨6, .weeks⟩, ⟨7, .years⟩] = 224827382001 ∧
    totalMilliseconds [⟨30, .seconds⟩, ⟨1, .minutes⟩] =
      totalMilliseconds [⟨1, .minutes⟩, ⟨30, .seconds⟩] ∧
    (∃ c, make "http://host:9090" (some (write [⟨2 ^ 1024 - 2 ^ 970 - 1, .millis⟩])) false =
      .ok c) ∧
    make "http://host:9090" (some (write [⟨2 ^ 1024 - 2 ^ 970, .millis⟩])) false =
      .error .largeInteger := by
  obtain ⟨hone, -, hperm, -, -, hmake⟩ := timeout_limit
  have hmillis {n : Nat} (hn : n < tenTo 4300) (e : Error) :
      make "http://host:9090" (some (write [⟨n, .millis⟩])) false = .error e ↔
        2 ^ 1024 - 2 ^ 970 ≤ n ∧ e = .largeInteger := by
    have htotal : totalMilliseconds [⟨n, .millis⟩] = n := (hone _).trans (Nat.mul_one n)
    rw [hmake _ _ _ _ (write_millis_ne_empty hn), durations_write_millis hn]
    constructor
    · rintro (⟨⟨⟩⟩ | ⟨ds, hds, hle, he⟩)
      obtain rfl := Except.ok.inj hds
      exact ⟨htotal ▸ hle, he⟩
    · rintro ⟨hle, he⟩
      exact .inr ⟨_, rfl, htotal.symm ▸ hle, he⟩
  have hpos : 0 < 2 ^ 1024 - 2 ^ 970 :=
    Nat.sub_pos_of_lt (pow_lt_pow_right₀ one_lt_two (by decide))
  have hwritable : 2 ^ 1024 - 2 ^ 970 < tenTo 4300 := by
    refine Nat.lt_of_le_of_lt (Nat.sub_le _ _) ?_
    rw [← twoTo_eq_pow]
    decide +kernel
  -- The limit is only compared with what is one less.
  generalize 2 ^ 1024 - 2 ^ 970 = limit at hmillis hpos hwritable ⊢
  have hlt : limit - 1 < limit := Nat.sub_one_lt_of_lt hpos
  refine ⟨rfl, hperm _ _ (.swap _ _ _), ?_, (hmillis hwritable _).2 ⟨Nat.le_refl _, rfl⟩⟩
  cases h : make "http://host:9090" (some (write [⟨limit - 1, .millis⟩])) false with
  | ok c => exact ⟨c, rfl⟩
  | error e => exact absurd ((hmillis (hlt.trans hwritable) e).1 h).1 (Nat.not_le.2 hlt)

end Client
end MetricQuery
