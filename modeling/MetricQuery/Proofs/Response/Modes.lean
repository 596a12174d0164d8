import MetricQuery.Proofs.Response.Agreement
import MetricQuery.Proofs.Response.Document
import MetricQuery.Proofs.Schema.Library

/-!
# Answers in three forms

An answer may arrive as a text, as the bytes of the text or as the value that the lenient reader
gives for the text. All three are read alike (`Response.read_alike`), as long as no number of the
text is longer than the reader of texts takes. A longer one may be read as a value only.
-/

namespace MetricQuery

open Schema Checked

namespace Json

/-! ### Narrow numbers -/

/-- An integer of 64 bits, or a number that is no integer. -/
def Number.IsNarrow (n : Number) : Prop := n.IsInteger → FitsWord n.wholeValue

theorem IsAtom.narrow {v : Json} (h : v.IsAtom) (hself : ∀ i, v = .int i → FitsWord i) :
    v.Narrow :=
  narrow_of_child hself fun _ _ hu => absurd hu h.child?_ne_some

theorem narrow_list {vs : List Json} (h : ∀ v ∈ vs, v.Narrow) : (list vs).Narrow := by
  refine narrow_of_child nofun fun step u hu => ?_
  cases step with
  | field name => cases hu
  | item i => exact h u (List.mem_of_getElem? hu)

theorem narrow_record {fields : Fields} (h : ∀ v ∈ fields.map Prod.snd, v.Narrow) :
    (record fields).Narrow := by
  refine narrow_of_child nofun fun step u hu => ?_
  cases step with
  | field name => exact h u (List.mem_map_of_mem (exists_mem_of_field? hu))
  | item i => cases hu

theorem Number.isAtom_value (n : Number) : n.value.IsAtom := by
  unfold Number.value
  split <;> trivial

theorem Number.IsNarrow.narrow_value {n : Number} (h : n.IsNarrow) : n.value.Narrow := by
  refine IsAtom.narrow n.isAtom_value fun i hi => ?_
  unfold Number.value at hi
  split at hi <;> cases hi
  case isTrue hinteger => exact h hinteger

/-- What is written with narrow numbers is narrow. -/
theorem Written.narrow {part : Part} {cs : List Char} {ns : List Number} (h : Written part cs ns)
    (hns : ∀ n ∈ ns, n.IsNarrow) : ∀ v ∈ part.values, v.Narrow := by
  induction h with
  | padded _ _ _ ih => exact ih hns
  | null | «true» | «false» | text =>
    exact List.forall_mem_singleton.2 (IsAtom.narrow trivial nofun)
  | number n => exact List.forall_mem_singleton.2 (hns n List.mem_cons_self).narrow_value
  | emptyList => exact List.forall_mem_singleton.2 (narrow_list nofun)
  | list _ ih => exact List.forall_mem_singleton.2 (narrow_list (ih hns))
  | emptyRecord => exact List.forall_mem_singleton.2 (narrow_record nofun)
  | record _ _ ih => exact List.forall_mem_singleton.2 (narrow_record (ih hns))
  | item _ ih => exact ih hns
  | items _ _ ihv ih =>
    obtain ⟨hns, hms⟩ := List.forall_mem_append.1 hns
    exact List.forall_mem_cons.2 ⟨List.forall_mem_singleton.1 (ihv hns), ih hms⟩
  | field _ _ _ _ ih => exact ih hns
  | lastField _ ih => exact ih hns
  | fields _ _ ihfield ih =>
    obtain ⟨hns, hms⟩ := List.forall_mem_append.1 hns
    exact List.forall_mem_cons.2 ⟨List.forall_mem_singleton.1 (ihfield hns), ih hms⟩

/-- What is written has distinct names. -/
theorem Written.distinct {part : Part} {cs : List Char} {ns : List Number}
    (h : Written part cs ns) : ∀ v ∈ part.values, v.Distinct := by
  induction h with
  | padded _ _ _ ih => exact ih
  | null | «true» | «false» | text => exact List.forall_mem_singleton.2 (IsAtom.distinct trivial)
  | number n => exact List.forall_mem_singleton.2 n.isAtom_value.distinct
  | emptyList => exact List.forall_mem_singleton.2 (distinct_list nofun)
  | list _ ih => exact List.forall_mem_singleton.2 (distinct_list ih)
  | emptyRecord => exact List.forall_mem_singleton.2 (distinct_record List.nodup_nil nofun)
  | record _ hnames ih => exact List.forall_mem_singleton.2 (distinct_record hnames ih)
  | item _ ih => exact ih
  | items _ _ ihv ih => exact List.forall_mem_cons.2 ⟨List.forall_mem_singleton.1 ihv, ih⟩
  | field _ _ _ _ ih => exact ih
  | lastField _ ih => exact ih
  | fields _ _ ihfield ih =>
    exact List.forall_mem_cons.2 ⟨List.forall_mem_singleton.1 ihfield, ih⟩

/-! ### The lenient reader -/

/-- An integer of 64 bits has at most twenty digits. -/
theorem Number.IsNarrow.length_whole_le {n : Number} (h : n.IsNarrow) (hinteger : n.IsInteger) :
    n.whole.length ≤ Digit.limit := by
  obtain ⟨hle, hlt⟩ := h hinteger
  have hword : wordBound = 9223372036854775808 := by decide +kernel
  have hten : tenTo 20 = 100000000000000000000 := by decide +kernel
  have hvalue : Nat.ofDigitChars 10 n.whole 0 < tenTo 20 := by
    unfold Number.wholeValue at hle hlt
    -- the bound that counts depends on the sign
    cases hnegative : n.negative <;>
      simp only [hnegative, if_true, if_false, Bool.false_eq_true] at hle hlt <;> omega
  have hcount := (Digit.count_le_iff (by decide)).2 hvalue
  rw [Digit.count, Digit.write_ofDigitChars n.whole_isPlain] at hcount
  exact Nat.le_trans hcount (by decide)

theorem Number.IsNarrow.respects_lenient {n : Number} (h : n.IsNarrow) :
    Token.Respects .lenient n where
  wholeLength_le := nofun
  length_le hinteger := by
    rintro k ⟨⟩
    exact h.length_whole_le hinteger

/-- The lenient reader gives a value for a text, with some bound on how deep lists and records may
lie in each other. The bound is what its stack has room for. -/
def Loads (s : String) (v : Json) : Prop :=
  ∃ room, read { Dialect.lenient with maxDepth := room } s.toList = .ok v

theorem Loads.eq {s : String} {v w : Json} {ns : List Number} (h : Loads s w)
    (hv : Written (.value v) s.toList ns) : w = v :=
  h.elim fun _ hread => eq_of_readAs hv hread

theorem read_lenient_of_written {s : String} {v : Json} {ns : List Number}
    (h : Written (.value v) s.toList ns) (hns : ∀ n ∈ ns, n.IsNarrow) :
    read .lenient s.toList = .ok v :=
  readAs_of_written h (fun n hn => (hns n hn).respects_lenient) fun _ _ _ => nofun

end Json

namespace Response

variable {L : Library} {s : String} {fields : Json.Fields} {ns : List Json.Number} {R : Response}

/-! ### Reading alike -/

/-- Either all payloads are read as one answer, or all are refused for problems. -/
def ReadAlike (L : Library) (payloads : List Payload) : Prop :=
  (∃ R, ∀ p ∈ payloads, readBy L p = .ok R) ∨
    ∀ p ∈ payloads, ∃ ps, readBy L p = .error (.problems ps)

/-- A text, its bytes and a record. -/
def forms (s : String) (fields : Json.Fields) : List Payload :=
  [.text s, .bytes s.toUTF8, .value (.record fields)]

theorem fromUTF8?_toUTF8 (s : String) : String.fromUTF8? s.toUTF8 = some s :=
  dif_pos s.isValidUTF8

theorem readBy_forms_of_sound (hread : L.read s = .ok (.record fields))
    (hsound : ∀ source, decode (L.validator source) (.record fields) = .sound R) :
    ∀ p ∈ forms s fields, readBy L p = .ok R := by
  refine List.forall_mem_cons.2 ⟨?_, List.forall_mem_cons.2 ⟨?_, List.forall_mem_singleton.2 ?_⟩⟩
  · exact (readBy_eq_ok_iff (.text hread)).2 (hsound .text)
  · exact (readBy_eq_ok_iff (.bytes (fromUTF8?_toUTF8 s) hread)).2 (hsound .text)
  · exact (readBy_eq_ok_iff (.value fields)).2 (hsound .value)

/-- A text that is refused is refused in its bytes as well. -/
theorem refused_of_not_ofTextBy (h : ¬ ∃ R, ofTextBy L s = .sound R) :
    ∃ ps, readBy L (.text s) = .error (.problems ps) ∧
      readBy L (.bytes s.toUTF8) = .error (.problems ps) := by
  obtain ⟨ps, hps⟩ := exists_toExcept_eq_error h
  refine ⟨ps, by rw [readBy, hps]; rfl, ?_⟩
  rw [readBy, ofBytesBy, fromUTF8?_toUTF8]
  simp only [hps]
  rfl

/-- A text that writes no answer is refused, and so is the record that it writes. -/
theorem refused_forms_of_not_sound [L.Lawful]
    (h : Json.Written (.value (.record fields)) s.toList ns)
    (hsound : ∀ source, ¬ ∃ R, decode (L.validator source) (.record fields) = .sound R) :
    ∀ p ∈ forms s fields, ∃ ps, readBy L p = .error (.problems ps) := by
  have htext : ¬ ∃ R, ofTextBy L s = .sound R := by
    rintro ⟨R, hR⟩
    obtain ⟨v, hread⟩ := exists_document_of_ofTextBy hR
    obtain rfl := Library.Lawful.eq_of_read h hread
    exact hsound .text ⟨R, ofTextBy_eq hread ▸ hR⟩
  obtain ⟨ps, htext, hbytes⟩ := refused_of_not_ofTextBy htext
  obtain ⟨qs, hqs⟩ := exists_toExcept_eq_error (hsound .value)
  refine List.forall_mem_cons.2 ⟨⟨ps, htext⟩,
    List.forall_mem_cons.2 ⟨⟨ps, hbytes⟩, List.forall_mem_singleton.2 ⟨qs, ?_⟩⟩⟩
  rw [readBy, hqs]
  rfl

/-! ### An answer with one number -/

/-- The text of an answer with a number for the time of its only sample. -/
def scalarText (n : Json.Number) : List Char :=
  '\x7b' :: ((Json.fieldText "status" (Json.quoted "success") ++ ',' ::
    Json.fieldText "data" ('\x7b' :: ((Json.fieldText "resultType" (Json.quoted "scalar") ++ ',' ::
      Json.fieldText "result" ('[' :: ((n.text ++ ',' :: Json.quoted "1") ++ [']'])))
        ++ ['\x7d']))) ++ ['\x7d'])

def scalarFields (n : Json.Number) : Json.Fields :=
  [("status", .text "success"),
    ("data", .record [("resultType", .text "scalar"), ("result", .list [n.value, .text "1"])])]

theorem written_scalarText (n : Json.Number) :
    Json.Written (.value (.record (scalarFields n))) (scalarText n) [n] := by
  have hsample := Json.Written.list (.items (.number n) (.item (Json.written_quoted
    (by decide : Json.IsPlain "1"))))
  have hdata := Json.Written.record (.fields
    (Json.written_fieldText (by decide : Json.IsPlain "resultType")
      (Json.written_quoted (by decide : Json.IsPlain "scalar")))
    (.lastField (Json.written_fieldText (by decide : Json.IsPlain "result") hsample))) (by simp)
  exact .record (.fields
    (Json.written_fieldText (by decide : Json.IsPlain "status")
      (Json.written_quoted (by decide : Json.IsPlain "success")))
    (.lastField (Json.written_fieldText (by decide : Json.IsPlain "data") hdata)))
    (by simp [scalarFields])

theorem written_ofList_scalarText (n : Json.Number) :
    Json.Written (.value (.record (scalarFields n))) (String.ofList (scalarText n)).toList [n] := by
  rw [String.toList_ofList]
  exact written_scalarText n

/-- **The three forms of an answer are read alike.** Take a text that writes a record in which no
name is repeated, with integers of 64 bits and no number longer than a text may have before its
point or exponent. The text, its bytes and the record are read as one answer or are all refused, and
what the lenient reader gives for the text is the record. -/
theorem read_alike (L : Library) [L.Lawful]
    (h : Json.Written (.value (.record fields)) s.toList ns) (hnarrow : ∀ n ∈ ns, n.IsNarrow)
    (hshort : ∀ n ∈ ns, n.IsShort) :
    ReadAlike L (forms s fields) ∧ ∀ v, Json.Loads s v → v = .record fields := by
  refine ⟨?_, fun v hv => hv.eq h⟩
  have hfields : (Json.record fields).Narrow := List.forall_mem_singleton.1 (h.narrow hnarrow)
  have hdistinct : (Json.record fields).Distinct := List.forall_mem_singleton.1 h.distinct
  by_cases hsound : ∃ source R, decode (L.validator source) (.record fields) = .sound R
  -- what one source accepts is shallow, so that the bound on the depth of texts is kept
  · obtain ⟨source, R, hR⟩ := hsound
    have hagree (source' : Source) : (Json.record fields).Shallow 6 ∧
        decode (L.validator source') (.record fields) = .sound R :=
      agree (Library.Lawful.follows source source') _ R hfields hdistinct hR
    have hread : L.read s = .ok (.record fields) :=
      Library.Lawful.read_of_written h hshort ((hagree source).1.mono (by decide))
    exact .inl ⟨R, readBy_forms_of_sound hread fun source' => (hagree source').2⟩
  · exact .inr (refused_forms_of_not_sound h fun source hR => hsound ⟨source, hR⟩)

/-- One and a half thousand, with a fraction and an exponent. -/
def thousands : Json.Number where
  negative := false
  whole := ['1']
  fraction := ['5']
  exponent := some ⟨'e', some '+', ['3'], .inl rfl, by simp, by simp, by simp⟩
  whole_isPlain := ⟨by simp, by simp, by simp⟩
  fraction_isDigit := by simp

theorem read_alike_thousands :
    (∀ n ∈ [thousands], n.IsNarrow) ∧ (∀ n ∈ [thousands], n.IsShort) ∧
    ReadAlike .standard
      (forms (String.ofList (scalarText thousands)) (scalarFields thousands)) ∧
    ∀ v, Json.Loads (String.ofList (scalarText thousands)) v ↔
      v = .record (scalarFields thousands) := by
  have hnarrow : ∀ n ∈ [thousands], n.IsNarrow :=
    List.forall_mem_singleton.2 fun hinteger => absurd hinteger (by decide)
  have hshort : ∀ n ∈ [thousands], n.IsShort := List.forall_mem_singleton.2 (by decide)
  have htext := written_ofList_scalarText thousands
  obtain ⟨halike, hloads⟩ := read_alike .standard htext hnarrow hshort
  refine ⟨hnarrow, hshort, halike, fun v => ⟨hloads v, ?_⟩⟩
  rintro rfl
  exact ⟨none, Json.read_lenient_of_written htext hnarrow⟩

/-! ### Longer numbers -/

/-- A text with a longer number is refused, whatever it writes. -/
theorem refused_of_not_short (h : Json.Written (.value (.record fields)) s.toList ns)
    {n : Json.Number} (hn : n ∈ ns) (hlong : ¬ n.IsShort) :
    ∃ ps, read (.text s) = .error (.problems ps) ∧
      read (.bytes s.toUTF8) = .error (.problems ps) := by
  refine refused_of_not_ofTextBy ?_
  rintro ⟨R, hR⟩
  obtain ⟨v, hread⟩ := exists_document_of_ofTextBy hR
  exact hlong (respects_strict_iff.1 (Json.respects_of_readAs h hread n hn))

def scalarAnswer (time : Binary64) : Response :=
  ⟨.success, some ⟨.scalar ⟨time, "1"⟩, none⟩, none, none, none, none⟩

/-- A number that is no integer may stand for the time of a sample. -/
theorem decode_scalarFields {V : Validator} [V.Lawful] {n : Json.Number} {x : Binary64}
    (hn : n.value = .float x) : decode V (.record (scalarFields n)) = .sound (scalarAnswer x) := by
  have hdocument : Json.record (scalarFields n) = (scalarAnswer x).document .omitted := by
    rw [scalarFields, hn]
    rfl
  rw [hdocument]
  exact decode_document .omitted _

/-- The record that a text writes may be read where the text is refused. -/
theorem not_readAlike_of_not_short {n : Json.Number} (hinteger : ¬ n.IsInteger)
    (hlong : ¬ n.IsShort) :
    ¬ ReadAlike .standard (forms (String.ofList (scalarText n)) (scalarFields n)) := by
  obtain ⟨ps, hps, -⟩ :=
    refused_of_not_short (written_ofList_scalarText n) List.mem_cons_self hlong
  have hvalue : read (.value (.record (scalarFields n))) = .ok (scalarAnswer _) :=
    (readBy_eq_ok_iff (.value _)).2 (decode_scalarFields (if_neg hinteger))
  rintro (⟨R, hR⟩ | hrefused)
  · cases hps.symm.trans (hR _ List.mem_cons_self)
  · obtain ⟨qs, hqs⟩ := hrefused (.value (.record (scalarFields n)))
      (List.mem_cons_of_mem _ (List.mem_cons_of_mem _ List.mem_cons_self))
    cases hvalue.symm.trans hqs

/-- One, written as a power of ten with `k` zeros and an exponent that takes them back. -/
def oneWithZeros (k : ℕ) : Json.Number where
  negative := false
  whole := '1' :: List.replicate k '0'
  fraction := []
  exponent := some ⟨'e', some '-', Digit.write k, .inl rfl, by simp, Digit.write_ne_nil k,
    fun _ => Digit.isDigit_of_mem_write⟩
  whole_isPlain := by
    refine ⟨List.cons_ne_nil _ _, fun c hc => ?_, nofun⟩
    obtain rfl | hc := List.mem_cons.1 hc
    · rfl
    · rw [List.eq_of_mem_replicate hc]
      rfl
  fraction_isDigit := nofun

theorem not_isInteger_oneWithZeros (k : ℕ) : ¬ (oneWithZeros k).IsInteger := nofun

theorem wholeLength_oneWithZeros (k : ℕ) : (oneWithZeros k).wholeLength = k + 1 := by
  change 0 + ('1' :: List.replicate k '0').length = k + 1
  rw [List.length_cons, List.length_replicate, Nat.zero_add]

/-- The first text that is refused where its record is read: its number has a digit too many. -/
theorem not_readAlike_oneWithZeros :
    Json.Written (.value (.record (scalarFields (oneWithZeros 4300))))
      (String.ofList (scalarText (oneWithZeros 4300))).toList [oneWithZeros 4300] ∧
    (oneWithZeros 4300).IsNarrow ∧
    Json.read .lenient (String.ofList (scalarText (oneWithZeros 4300))).toList =
      .ok (.record (scalarFields (oneWithZeros 4300))) ∧
    ¬ ReadAlike .standard (forms (String.ofList (scalarText (oneWithZeros 4300)))
      (scalarFields (oneWithZeros 4300))) := by
  have hnarrow : (oneWithZeros 4300).IsNarrow := fun h => absurd h (not_isInteger_oneWithZeros _)
  have hlong : ¬ (oneWithZeros 4300).IsShort := by
    rw [Json.Number.IsShort, wholeLength_oneWithZeros]
    decide
  have htext := written_ofList_scalarText (oneWithZeros 4300)
  exact ⟨htext, hnarrow,
    Json.read_lenient_of_written htext (List.forall_mem_singleton.2 hnarrow),
    not_readAlike_of_not_short (not_isInteger_oneWithZeros _) hlong⟩

end Response
end MetricQuery
