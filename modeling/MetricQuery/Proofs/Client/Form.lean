import Mathlib.Data.List.Flatten
import Mathlib.Data.List.Forall2
import MetricQuery.Client.Url

/-!
# Pairs in addresses and forms

The form in which pairs of names and values are written into an address or a body: pairs are divided
by `&`, a name and its value by `=`, a space may be a plus, and any character may be written as the
bytes of its UTF-8 form, two hexadecimal digits each. Whatever a writer chooses to escape,
`Url.readPairs` reads the pairs back.
-/

namespace MetricQuery
namespace Url

/-- The characters that have a meaning of their own where pairs are written. -/
def marks : List Char := ['%', '+', '&', '=']

/-- A percent sign and two hexadecimal digits write a byte. -/
inductive ByteForm : UInt8 → List Char → Prop
  | intro {b : UInt8} {high low : Char} :
    Digit.hexadecimal? high = some (b.toNat / 16) → Digit.hexadecimal? low = some (b.toNat % 16) →
      ByteForm b ['%', high, low]

/-- A character stands for itself, a plus for a space, and escaped bytes for the character that they
encode. -/
inductive CharForm : Char → List Char → Prop
  | plain {c : Char} : c ∉ marks → CharForm c [c]
  | space : CharForm ' ' ['+']
  | escaped {c : Char} {bytes : List (List Char)} :
    List.Forall₂ ByteForm (String.utf8EncodeChar c) bytes → CharForm c bytes.flatten

/-- A name or a value is written character by character. -/
inductive PartForm : String → List Char → Prop
  | intro {s : String} {forms : List (List Char)} :
    List.Forall₂ CharForm s.toList forms → PartForm s forms.flatten

inductive PairForm : String × String → List Char → Prop
  | intro {name value : String} {ns vs : List Char} :
    PartForm name ns → PartForm value vs → PairForm (name, value) (ns ++ '=' :: vs)

inductive PairsForm : List (String × String) → List Char → Prop
  | intro {pairs : List (String × String)} {forms : List (List Char)} :
    List.Forall₂ PairForm pairs forms → PairsForm pairs (['&'].intercalate forms)

/-! ### The bytes of a part -/

theorem partBytes_plain {c : Char} (hplus : c ≠ '+') (hpercent : c ≠ '%') (rest : List Char) :
    partBytes (c :: rest) = String.utf8EncodeChar c ++ partBytes rest := by
  rw [partBytes]
  · exact hplus
  · exact fun _ _ _ h => absurd h hpercent

theorem partBytes_byteForm {b : UInt8} {cs : List Char} (h : ByteForm b cs) (rest : List Char) :
    partBytes (cs ++ rest) = b :: partBytes rest := by
  cases h with
  | @intro high low hhigh hlow =>
    have hb : 16 * (b.toNat / 16) + b.toNat % 16 = b.toNat := by omega
    rw [List.cons_append, List.cons_append, List.cons_append, List.nil_append, partBytes]
    simp only [hhigh, hlow, hb, UInt8.ofNat_toNat]

theorem partBytes_bytes {bs : List UInt8} {forms : List (List Char)}
    (h : List.Forall₂ ByteForm bs forms) (rest : List Char) :
    partBytes (forms.flatten ++ rest) = bs ++ partBytes rest := by
  induction h with
  | nil => rfl
  | cons hbyte _ ih =>
    rw [List.flatten_cons, List.append_assoc, partBytes_byteForm hbyte, ih, List.cons_append]

theorem partBytes_charForm {c : Char} {cs : List Char} (h : CharForm c cs) (rest : List Char) :
    partBytes (cs ++ rest) = String.utf8EncodeChar c ++ partBytes rest := by
  cases h with
  | plain hc =>
    simp only [marks, List.mem_cons, not_or] at hc
    exact partBytes_plain hc.2.1 hc.1 rest
  | space =>
    rw [List.singleton_append, partBytes]
    rfl
  | escaped hbytes => exact partBytes_bytes hbytes rest

theorem partBytes_chars {cs : List Char} {forms : List (List Char)}
    (h : List.Forall₂ CharForm cs forms) :
    partBytes forms.flatten = cs.flatMap String.utf8EncodeChar := by
  induction h with
  | nil => rfl
  | cons hchar _ ih => rw [List.flatten_cons, partBytes_charForm hchar, ih, List.flatMap_cons]

theorem readPart_of_form {s : String} {cs : List Char} (h : PartForm s cs) : readPart cs = s := by
  cases h with
  | intro hforms =>
    have hbytes : (⟨(s.toList.flatMap String.utf8EncodeChar).toArray⟩ : ByteArray) =
        s.toByteArray := by
      rw [← String.ofList_toList (s := s), String.toByteArray_ofList, String.toList_ofList]
      exact ByteArray.ext List.data_toByteArray.symm
    rw [readPart, partBytes_chars hforms, hbytes, String.fromUTF8?, dif_pos s.isValidUTF8]
    rfl

/-! ### The marks between parts -/

theorem hexadecimal?_of_isSeparator {c : Char} (h : c = '&' ∨ c = '=') :
    Digit.hexadecimal? c = none := by
  rcases h with rfl | rfl <;> decide

variable {mark : Char}

/-- What stands in no form of an item stands in no row of such forms. -/
theorem notMem_flatten {α : Type} {R : α → List Char → Prop} (hR : ∀ a cs, R a cs → mark ∉ cs)
    {items : List α} {forms : List (List Char)} (h : List.Forall₂ R items forms) :
    mark ∉ forms.flatten := by
  induction h with
  | nil => exact List.not_mem_nil
  | cons hitem _ ih =>
    rw [List.flatten_cons, List.mem_append, not_or]
    exact ⟨hR _ _ hitem, ih⟩

theorem ByteForm.notMem (hmark : mark = '&' ∨ mark = '=') {b : UInt8} {cs : List Char}
    (h : ByteForm b cs) : mark ∉ cs := by
  have hnone := hexadecimal?_of_isSeparator hmark
  cases h with
  | intro hhigh hlow =>
    intro hmem
    rcases List.mem_cons.1 hmem with rfl | hmem
    · rcases hmark with h | h <;> cases h
    rcases List.mem_cons.1 hmem with rfl | hmem
    · cases hnone.symm.trans hhigh
    · rw [List.mem_singleton.1 hmem] at hnone
      cases hnone.symm.trans hlow

theorem CharForm.notMem (hmark : mark = '&' ∨ mark = '=') {c : Char} {cs : List Char}
    (h : CharForm c cs) : mark ∉ cs := by
  cases h with
  | plain hc =>
    intro hmem
    rw [← List.mem_singleton.1 hmem] at hc
    rcases hmark with rfl | rfl <;> exact hc (by decide)
  | space => rcases hmark with rfl | rfl <;> decide
  | escaped hbytes => exact notMem_flatten (fun _ _ => ByteForm.notMem hmark) hbytes

theorem PartForm.notMem (hmark : mark = '&' ∨ mark = '=') {s : String} {cs : List Char}
    (h : PartForm s cs) : mark ∉ cs := by
  cases h with
  | intro hforms => exact notMem_flatten (fun _ _ => CharForm.notMem hmark) hforms

theorem PairForm.notMem {pair : String × String} {cs : List Char} (h : PairForm pair cs) :
    '&' ∉ cs := by
  cases h with
  | intro hname hvalue =>
    rw [List.mem_append, List.mem_cons, not_or, not_or]
    exact ⟨hname.notMem (.inl rfl), by decide, hvalue.notMem (.inl rfl)⟩

/-! ### Pairs -/

/-- The pair that a text between two separators writes. -/
def readPair (cs : List Char) : String × String :=
  (readPart (cs.takeWhile (· != '=')), readPart ((cs.dropWhile (· != '=')).drop 1))

theorem readPair_of_form {pair : String × String} {cs : List Char} (h : PairForm pair cs) :
    readPair cs = pair := by
  cases h with
  | intro hname hvalue =>
    have hne : ∀ c ∈ _, (c != '=') = true := fun c hc =>
      bne_iff_ne.2 fun heq => hname.notMem (.inr rfl) (heq ▸ hc)
    rw [readPair, List.takeWhile_append_of_pos hne, List.dropWhile_append_of_pos hne,
      List.takeWhile_cons_of_neg (by decide), List.dropWhile_cons_of_neg (by decide),
      List.append_nil, List.drop_one, List.tail_cons, readPart_of_form hname,
      readPart_of_form hvalue]

theorem PairForm.ne_nil {pair : String × String} {cs : List Char} (h : PairForm pair cs) :
    cs ≠ [] := by
  cases h with
  | intro _ _ => simp

theorem map_readPair_of_forms {pairs : List (String × String)} {forms : List (List Char)}
    (h : List.Forall₂ PairForm pairs forms) :
    (forms.filter (!·.isEmpty)).map readPair = pairs := by
  induction h with
  | nil => rfl
  | cons hpair _ ih =>
    rw [List.filter_cons_of_pos (by simpa using hpair.ne_nil), List.map_cons,
      readPair_of_form hpair, ih]

theorem readPairs_intercalate {pairs : List (String × String)} {forms : List (List Char)}
    (h : List.Forall₂ PairForm pairs forms) : readPairs (['&'].intercalate forms) = pairs := by
  rcases eq_or_ne forms [] with rfl | hne
  · cases h
    rfl
  · have hmark : ∀ form ∈ forms, '&' ∉ form := fun form hform hmem =>
      notMem_flatten (fun _ _ => PairForm.notMem) h (List.mem_flatten.2 ⟨form, hform, hmem⟩)
    rw [readPairs, List.splitOn_intercalate '&' hmark hne]
    exact map_readPair_of_forms h

/-- **Pairs are read as they were written,** in their order, whichever characters are escaped. -/
theorem readPairs_of_form {pairs : List (String × String)} {cs : List Char}
    (h : PairsForm pairs cs) : readPairs cs = pairs := by
  cases h with
  | intro hforms => exact readPairs_intercalate hforms

end Url
end MetricQuery
