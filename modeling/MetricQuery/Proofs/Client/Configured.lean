import MetricQuery.Client.Basic
import MetricQuery.Proofs.Client.Address
import MetricQuery.Proofs.Duration.Canonical
import MetricQuery.Proofs.Schema.Container

/-!
# Clients from settings

A client is made from an address and a timeout, or from settings that keep the canonical text of the
timeout. Both ways lead to the same client, or both fail, with one exception: an empty timeout
counts as none where a client is made from it, and is refused in settings.
-/

namespace MetricQuery

/-! ### Timeouts -/

namespace Value
open Duration

variable {t r : String}

/-- Durations that are read have a canonical text. -/
theorem exists_durationText {ds : List Duration} (h : (text t).durations = .ok ds) :
    ∃ r, (text t).durationText = .ok r := by
  rw [durations, mapError_eq_ok_iff, read_eq_ok_iff] at h
  obtain ⟨ps, hps, -⟩ := h
  exact ⟨write (ps.map Piece.duration), durationText_eq_ok_iff.2 ⟨ps, hps, rfl⟩⟩

end Value

-- An equation between functions: at an argument the kernel would work out the total.
theorem totalSeconds_eq : totalSeconds = fun ds => match Duration.totalSeconds? ds with
    | some x => .ok x
    | none => .error .largeInteger := by
  delta totalSeconds
  rfl

theorem totalSeconds_of_totalSeconds? {ds : List Duration} {x : Binary64}
    (h : Duration.totalSeconds? ds = some x) : totalSeconds ds = .ok x := by
  simp only [totalSeconds_eq, h]

namespace Client

theorem readTimeout_some {t : String} (h : t ≠ "") :
    readTimeout (some t) = (do totalSeconds (← (Value.text t).durations)) := if_neg h

/-- A timeout and its canonical text are as long. -/
theorem readTimeout_durationText {t r : String} (ht : t ≠ "")
    (h : (Value.text t).durationText = .ok r) : readTimeout (some r) = readTimeout (some t) := by
  have hdurations := Value.durations_of_durationText h
  have hr : r ≠ "" := by
    rintro rfl
    obtain ⟨ds, hds, -⟩ := bind_eq_ok.1 h
    cases hdurations.trans hds
  rw [readTimeout_some ht, readTimeout_some hr, hdurations]

/-- A timeout that can be read has a canonical text. -/
theorem exists_durationText_of_readTimeout {t : String} {x : Binary64} (ht : t ≠ "")
    (h : readTimeout (some t) = .ok x) : ∃ r, (Value.text t).durationText = .ok r := by
  rw [readTimeout_some ht] at h
  obtain ⟨ds, hds, -⟩ := bind_eq_ok.1 h
  exact Value.exists_durationText hds

end Client

/-! ### Settings -/

namespace Settings
open Schema Checked

/-- A document that holds the fields of the settings. -/
def document (fields : Json.Fields) : Json := .record [("prometheusConfig", .record fields)]

/-- The fields give an address, perhaps a timeout, and the way of sending, which may be left out for
requests without a form. -/
structure Given (fields : Json.Fields) (baseUrl : String) (timeout : Option String)
    (usePost : Bool) : Prop where
  baseUrl_eq : Json.field? fields "baseUrl" = some (.text baseUrl)
  timeout_eq : Json.given? fields "queryTimeout" = timeout.map .text
  usePost_eq : (Json.field? fields "usePost").getD (.bool false) = .bool usePost

variable {fields : Json.Fields} {baseUrl : String} {timeout : Option String} {usePost : Bool}

/-- Of fields that give settings the timeout alone may be refused. -/
theorem Given.decode_eq (h : Given fields baseUrl timeout usePost) : decode (document fields) =
    ((fun t => ⟨baseUrl, t, usePost⟩) <$> nullableField fields "queryTimeout" decodeTimeout).under
      "prometheusConfig" := by
  have hbase : required fields "baseUrl" text = .sound baseUrl := by
    rw [required, h.baseUrl_eq]
    rfl
  have hpost : Schema.optional fields "usePost" false Schema.bool = .sound usePost := by
    have husePost := h.usePost_eq
    unfold Schema.optional
    cases hfield : Json.field? fields "usePost" with
    | none =>
      rw [hfield] at husePost
      cases husePost
      rfl
    | some v =>
      rw [hfield] at husePost
      cases husePost
      rfl
  have hrecord : decode (document fields) = (Settings.mk <$> required fields "baseUrl" text <*>
      nullableField fields "queryTimeout" decodeTimeout <*>
        Schema.optional fields "usePost" false Schema.bool).under "prometheusConfig" := rfl
  rw [hrecord, hbase, hpost, map_sound, sound_seq, seq_sound, map_map]

theorem decodeTimeout_eq_sound_iff {t r : String} :
    decodeTimeout (.text t) = .sound r ↔ (Value.text t).durationText = .ok r := by
  simp only [decodeTimeout, text]
  cases (Value.text t).durationText with
  | ok s => simp
  | error e => simp [problem]

/-- The settings keep the canonical text of the timeout. -/
theorem Given.decode_eq_sound_iff (h : Given fields baseUrl timeout usePost) {s : Settings} :
    decode (document fields) = .sound s ↔
      ∃ r, Option.Rel (fun t r => (Value.text t).durationText = .ok r) timeout r ∧
        s = ⟨baseUrl, r, usePost⟩ := by
  rw [h.decode_eq, under_eq_sound_iff, map_eq_sound_iff]
  simp only [nullableField_eq_sound_iff, h.timeout_eq, eq_comm (b := s)]
  refine exists_congr fun r => and_congr_left fun _ => ?_
  cases timeout with
  | none =>
    constructor
    · rintro ⟨⟩
      exact .none
    · rintro ⟨⟩
      exact .none
  | some t =>
    constructor
    · rintro ⟨hread⟩
      exact .some (decodeTimeout_eq_sound_iff.1 hread)
    · rintro ⟨htext⟩
      exact .some (decodeTimeout_eq_sound_iff.2 htext)

/-- An empty timeout is refused. -/
theorem Given.decode_empty (h : Given fields baseUrl (some "") usePost) :
    decode (document fields) =
      .faulty [⟨["prometheusConfig", "queryTimeout"], .refused "invalid time duration: ''"⟩] := by
  have hempty : decodeTimeout (.text "") = .problem (.refused "invalid time duration: ''") := rfl
  rw [h.decode_eq, nullableField_eq, h.timeout_eq]
  simp only [Option.map_some, hempty]
  rfl

end Settings

namespace Client
open Settings

variable {fields : Json.Fields} {baseUrl : String} {timeout : Option String} {usePost : Bool}

/-- The settings of a document are sound and lead to a client. -/
def Configured (fields : Json.Fields) (c : Client) : Prop :=
  ∃ s, Settings.decode (document fields) = .sound s ∧ ofSettings s = .ok c

theorem make_congr {timeout' : Option String} (h : readTimeout timeout = readTimeout timeout') :
    make baseUrl timeout usePost = make baseUrl timeout' usePost := by
  rw [make, make, h]

/-- A timeout that is not empty may be given directly or in settings. -/
theorem configured_iff (h : Given fields baseUrl timeout usePost) (ht : timeout ≠ some "")
    {c : Client} : Configured fields c ↔ make baseUrl timeout usePost = .ok c := by
  have hconfigured : Configured fields c ↔
      ∃ r, Option.Rel (fun t r => (Value.text t).durationText = .ok r) timeout r ∧
        make baseUrl r usePost = .ok c := by
    simp only [Configured, h.decode_eq_sound_iff]
    constructor
    · rintro ⟨_, ⟨r, hr, rfl⟩, hmake⟩
      exact ⟨r, hr, hmake⟩
    · rintro ⟨r, hr, hmake⟩
      exact ⟨_, ⟨r, hr, rfl⟩, hmake⟩
  rw [hconfigured]
  cases timeout with
  | none =>
    constructor
    · rintro ⟨_, ⟨⟩, hmake⟩
      exact hmake
    · exact fun hmake => ⟨none, .none, hmake⟩
  | some t =>
    have ht : t ≠ "" := fun heq => ht (congrArg some heq)
    constructor
    · rintro ⟨_, ⟨htext⟩, hmake⟩
      rwa [make_congr (readTimeout_durationText ht htext)] at hmake
    · intro hmake
      obtain ⟨x, hx, -⟩ := map_eq_ok.1 hmake
      obtain ⟨r, htext⟩ := exists_durationText_of_readTimeout ht hx
      exact ⟨some r, .some htext, by rwa [make_congr (readTimeout_durationText ht htext)]⟩

/-- An address without the slashes at its end. -/
def Stripped (baseUrl : String) (c : Client) : Prop :=
  (∃ n, baseUrl.toList = c.baseUrl.toList ++ List.replicate n '/') ∧ ¬ ['/'] <:+ c.baseUrl.toList

theorem stripped_of_make {c : Client} (h : make baseUrl timeout usePost = .ok c) :
    Stripped baseUrl c := by
  obtain ⟨x, -, rfl⟩ := map_eq_ok.1 h
  exact Url.withoutTrailingSlashes_spec baseUrl

/-- An empty timeout counts as none. -/
theorem make_empty : make baseUrl (some "") usePost =
    .ok ⟨Url.withoutTrailingSlashes baseUrl, usePost, .ofRatio false defaultTimeout 1⟩ := by
  rw [make, readTimeout, if_pos rfl, Except.map]

/-- **A timeout is the same directly and in settings, unless it is empty.** From an address and a
timeout and from settings that give them, either the same client is made, with the address without
the slashes at its end, or none. An empty timeout counts as none where it is given directly, and is
the one problem of settings that give it. -/
theorem make_eq_configured (h : Given fields baseUrl timeout usePost) :
    (timeout ≠ some "" →
      (∃ c, make baseUrl timeout usePost = .ok c ∧ Stripped baseUrl c ∧
        ∀ c', Configured fields c' ↔ c' = c) ∨
      (∃ e, make baseUrl timeout usePost = .error e) ∧ ∀ c', ¬Configured fields c') ∧
    (timeout = some "" →
      (∃ c, make baseUrl timeout usePost = .ok c ∧ Stripped baseUrl c ∧
        c.timeout = .ofRatio false defaultTimeout 1) ∧
      Settings.decode (document fields) = .faulty
        [⟨["prometheusConfig", "queryTimeout"], .refused "invalid time duration: ''"⟩]) := by
  constructor
  · intro ht
    simp only [configured_iff h ht]
    cases hmake : make baseUrl timeout usePost with
    | ok c =>
      exact .inl ⟨c, rfl, stripped_of_make hmake, fun c' => by rw [Except.ok.injEq, eq_comm]⟩
    | error e => exact .inr ⟨⟨e, rfl⟩, nofun⟩
  · rintro rfl
    exact ⟨⟨_, make_empty, stripped_of_make make_empty, by dsimp only⟩, h.decode_empty⟩

/-- The fields of settings with an address, a timeout and the way of sending. -/
def settingsFields (baseUrl timeout : String) (usePost : Bool) : Json.Fields :=
  [("baseUrl", .text baseUrl), ("queryTimeout", .text timeout), ("usePost", .bool usePost)]

theorem given_settingsFields (baseUrl timeout : String) (usePost : Bool) :
    Given (settingsFields baseUrl timeout usePost) baseUrl (some timeout) usePost := ⟨rfl, rfl, rfl⟩

/-- A timeout against the canonical order of its units, and a text that is no timeout. -/
theorem make_eq_configured_seconds_first :
    (∃ c, make "http://host:9090//" (some "30s1m") true = .ok c ∧ c.baseUrl = "http://host:9090" ∧
      ∀ c', Configured (settingsFields "http://host:9090//" "30s1m" true) c' ↔ c' = c) ∧
    (∃ e, make "http://host:9090//" (some "soon") true = .error e) ∧
      ∀ c', ¬Configured (settingsFields "http://host:9090//" "soon" true) c' := by
  have hread : (Value.text "30s1m").durations = .ok [⟨1, .minutes⟩, ⟨30, .seconds⟩] := by cbv
  have htotal : (Duration.totalSeconds? [⟨1, .minutes⟩, ⟨30, .seconds⟩]).isSome := by
    decide +kernel
  have hrefused : ∃ e, (Value.text "soon").durations = .error e := ⟨_, by cbv⟩
  obtain ⟨x, hx⟩ := Option.isSome_iff_exists.1 htotal
  have hseconds := totalSeconds_of_totalSeconds? hx
  have hstripped : Url.withoutTrailingSlashes "http://host:9090//" = "http://host:9090" := by decide
  have hmake :
      make "http://host:9090//" (some "30s1m") true = .ok ⟨"http://host:9090", true, x⟩ := by
    rw [make, readTimeout_some (by decide), hread, hstripped]
    simp only [bind, Except.bind, hseconds, Except.map]
  obtain ⟨e, hsoon⟩ := hrefused
  have hfails : make "http://host:9090//" (some "soon") true = .error e := by
    rw [make, readTimeout_some (by decide), hsoon]
    rfl
  have hgiven := given_settingsFields "http://host:9090//"
  constructor
  · rcases (make_eq_configured (hgiven "30s1m" true)).1 (by decide) with h | ⟨⟨_, herror⟩, -⟩
    · obtain ⟨c, hc, -, hconfigured⟩ := h
      obtain rfl := Except.ok.inj (hmake.symm.trans hc)
      exact ⟨_, hmake, rfl, hconfigured⟩
    · cases hmake.symm.trans herror
  · rcases (make_eq_configured (hgiven "soon" true)).1 (by decide) with ⟨_, hc, -⟩ | h
    · cases hfails.symm.trans hc
    · exact h

/-- An empty timeout waits as long as none, but settings with it lead to no client. -/
theorem not_configured_empty :
    (∃ c, make "http://host:9090" (some "") false = .ok c) ∧
      ∀ c, ¬Configured (settingsFields "http://host:9090" "" false) c := by
  have h := given_settingsFields "http://host:9090" "" false
  constructor
  · exact ⟨_, make_empty⟩
  · rintro c ⟨s, hs, -⟩
    rw [h.decode_empty] at hs
    cases hs

end Client
end MetricQuery
