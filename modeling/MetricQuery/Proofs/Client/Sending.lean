import MetricQuery.Client.Exchange
import MetricQuery.Proofs.Client.Address
import MetricQuery.Proofs.Client.Form
import MetricQuery.Proofs.Keyed
import MetricQuery.Proofs.Query.Params

/-!
# What a client sends

A client makes one request for a query, to its address with the endpoint appended. The server reads
the parameters of the query from it, in their order, whether they stand in the address or in a form,
and can tell the query from them. How pairs are written into either place is left open but for the
form that they have there.
-/

namespace MetricQuery

/-- A writer of pairs keeps their order and the form of pairs in addresses and forms. Of pairs that
share a name it may make what it likes. -/
def Url.IsWriter (write : List (String × String) → List Char) : Prop :=
  ∀ pairs, (pairs.map Prod.fst).Nodup → Url.PairsForm pairs (write pairs)

namespace Request

variable (write : List (String × String) → List Char) (r : Request)

/-- The pairs that a server reads from the address of a request. -/
def addressPairs : List (String × String) :=
  (r.address.query.map fun pairs => Url.readPairs (write pairs)).getD []

/-- The pairs that a server reads from the form of a request. -/
def formPairs : List (String × String) := Url.readPairs (write r.form)

/-- All pairs that a server reads. -/
def pairs : List (String × String) := r.addressPairs write ++ r.formPairs write

end Request

theorem Url.IsWriter.readPairs {write : List (String × String) → List Char} (h : IsWriter write)
    {pairs : List (String × String)} (hpairs : (pairs.map Prod.fst).Nodup) :
    readPairs (write pairs) = pairs := readPairs_of_form (h pairs hpairs)

/-- An endpoint is a path without query and fragment, and with a single slash at its front. -/
theorem Query.endpoint_spec (q : Query) : ∃ tail, q.endpoint.toList = '/' :: tail ∧
    tail.head? ≠ some '/' ∧ '?' ∉ q.endpoint.toList ∧ '#' ∉ q.endpoint.toList := by
  cases q with
  | instant q =>
    change ∃ tail, "/api/v1/query".toList = '/' :: tail ∧ tail.head? ≠ some '/' ∧
      '?' ∉ "/api/v1/query".toList ∧ '#' ∉ "/api/v1/query".toList
    exact ⟨"api/v1/query".toList, by decide, by decide, by decide, by decide⟩
  | range q =>
    change ∃ tail, "/api/v1/query_range".toList = '/' :: tail ∧ tail.head? ≠ some '/' ∧
      '?' ∉ "/api/v1/query_range".toList ∧ '#' ∉ "/api/v1/query_range".toList
    exact ⟨"api/v1/query_range".toList, by decide, by decide, by decide, by decide⟩

theorem Query.params_ne_nil (q : Query) : q.params ≠ [] := by
  cases q <;> exact List.cons_ne_nil _ _

namespace Client

variable {base : String} {timeout : Option String} {usePost : Bool} {c : Client}

theorem make_eq_ok (h : make base timeout usePost = .ok c) :
    c.baseUrl = Url.withoutTrailingSlashes base ∧ c.usePost = usePost := by
  unfold make at h
  cases ht : readTimeout timeout with
  | error e =>
    rw [ht] at h
    cases h
  | ok seconds =>
    rw [ht] at h
    cases h
    exact ⟨rfl, rfl⟩

/-- Since the names of parameters are distinct, a form holds them as they are. -/
theorem request_eq (c : Client) (q : Query) : c.request q =
    if c.usePost then ⟨.post, c.baseUrl ++ q.endpoint, [], q.params⟩
    else ⟨.get, c.baseUrl ++ q.endpoint, q.params, []⟩ := by
  rw [request, Keyed.ofPairs_of_nodup q.nodup_params]

/-- The address of a request is that of the client, with the endpoint at the end of its path and
with the parameters unless they stand in the form. -/
theorem address_request (hquery : '?' ∉ c.baseUrl.toList) (hfragment : '#' ∉ c.baseUrl.toList)
    (hslash : ¬ ['/'] <:+ c.baseUrl.toList) (q : Query) :
    (c.request q).address = { Url.ofText c.baseUrl with
      path := (Url.ofText c.baseUrl).path ++ q.endpoint.toList
      query := if c.usePost then none else some q.params } := by
  obtain ⟨tail, htail, hhead, hplain⟩ := q.endpoint_spec
  have hurl := Url.ofText_append hquery hfragment hslash htail hhead hplain
  have hnone : (Url.ofText c.baseUrl).query = none := by
    simp [Url.ofText, Url.cut_of_notMem hquery, Url.cut_of_notMem hfragment]
  rw [request_eq]
  cases c.usePost with
  | true =>
    simp only [if_true, Request.address, hurl]
    rw [← hnone]
  | false => simp [Request.address, hurl, q.params_ne_nil]

theorem pairs_request {write : List (String × String) → List Char} (hwrite : Url.IsWriter write)
    (hquery : '?' ∉ c.baseUrl.toList) (hfragment : '#' ∉ c.baseUrl.toList)
    (hslash : ¬ ['/'] <:+ c.baseUrl.toList) (q : Query) :
    (c.request q).addressPairs write = (if c.usePost then [] else q.params) ∧
      (c.request q).formPairs write = if c.usePost then q.params else [] := by
  rw [Request.addressPairs, address_request hquery hfragment hslash, Request.formPairs, request_eq]
  cases c.usePost with
  | true => exact ⟨rfl, hwrite.readPairs q.nodup_params⟩
  | false => exact ⟨hwrite.readPairs q.nodup_params, hwrite.readPairs List.nodup_nil⟩

/-- **Nothing of a query is lost on its way.** A client makes one request for it, whatever the reply
will be: to its address without the slashes at the end, with the endpoint appended. A request is
what is handed to the library that sends it, which may refuse an address that is not valid or a
query that is too long. A server that gets it reads exactly the parameters of the query, from the
address or from the form. Their names are distinct, each field that is set has one with its value
and the others have none, and the query can be told from them. So no other query gives the same
pairs. -/
theorem sends_query (hmake : make base timeout usePost = .ok c)
    (hquery : '?' ∉ base.toList) (hfragment : '#' ∉ base.toList)
    {write : List (String × String) → List Char} (hwrite : Url.IsWriter write) (q : Query) :
    (∀ reply, ∃ result log, c.execute q reply = .executed result [c.request q] log) ∧
    (∃ server slashes, base.toList = server.toList ++ List.replicate slashes '/' ∧
      ¬ ['/'] <:+ server.toList ∧ (c.request q).url = server ++ q.endpoint ∧
      (c.request q).address = { Url.ofText server with
        path := (Url.ofText server).path ++ q.endpoint.toList
        query := if usePost then none else some q.params }) ∧
    (c.request q).method = (if usePost then .post else .get) ∧
    (c.request q).addressPairs write = (if usePost then [] else q.params) ∧
    (c.request q).formPairs write = (if usePost then q.params else []) ∧
    (q.params.map Prod.fst).Nodup ∧
    (∀ field ∈ q.fields, q.params.lookup field.1 = field.2) ∧
    Query.ofParams? q.endpoint q.params = some q ∧
    ∀ q', (c.request q').pairs write = (c.request q).pairs write → q' = q := by
  obtain ⟨hbase, hmode⟩ := make_eq_ok hmake
  obtain ⟨⟨slashes, hslashes⟩, hslash⟩ := Url.withoutTrailingSlashes_spec base
  subst hmode
  rw [← hbase] at hslashes hslash
  rw [hslashes, List.mem_append, not_or] at hquery hfragment
  have hpairs := pairs_request hwrite hquery.1 hfragment.1 hslash
  refine ⟨fun reply => ⟨_, _, rfl⟩, ⟨c.baseUrl, slashes, hslashes, hslash, ?_,
    address_request hquery.1 hfragment.1 hslash q⟩, ?_, (hpairs q).1, (hpairs q).2, q.nodup_params,
    fun field => Query.lookup_params, q.ofParams?_params, fun q' h => ?_⟩
  · rw [request_eq]
    cases c.usePost <;> rfl
  · rw [request_eq]
    cases c.usePost <;> rfl
  · rw [Request.pairs, Request.pairs, (hpairs q').1, (hpairs q').2, (hpairs q).1, (hpairs q).2] at h
    refine Query.params_injective ?_
    cases hpost : c.usePost <;> simpa [hpost] using h

end Client

/-! ### A writer of pairs -/

namespace Url

/-- Letters, digits and four signs stand for themselves, a plus stands for a space, and every other
character is escaped. -/
def writeChar (c : Char) : List Char :=
  if c.isAlphanum || ['_', '.', '-', '~'].contains c then [c]
  else if c = ' ' then ['+']
  else (String.utf8EncodeChar c).flatMap percent

def writePart (s : String) : List Char := s.toList.flatMap writeChar

def writePair (pair : String × String) : List Char := writePart pair.1 ++ '=' :: writePart pair.2

def writePairs (pairs : List (String × String)) : List Char :=
  ['&'].intercalate (pairs.map writePair)

theorem byteForm_percent (b : UInt8) : ByteForm b (percent b) := by
  -- The 256 bytes one by one.
  have hbytes : ∀ n < 256, ((percent (UInt8.ofNat n)).drop 1).map Digit.hexadecimal? =
      [some (n / 16), some (n % 16)] := by decide +kernel
  have hb := hbytes b.toNat b.toNat_lt
  rw [UInt8.ofNat_toNat] at hb
  obtain ⟨high, rest, hdigits, hhigh, hrest⟩ := List.map_eq_cons_iff.1 hb
  obtain ⟨low, rest, rfl, hlow, hnil⟩ := List.map_eq_cons_iff.1 hrest
  rw [List.map_eq_nil_iff.1 hnil] at hdigits
  rw [show percent b = '%' :: (percent b).drop 1 from rfl, hdigits]
  exact .intro hhigh hlow

theorem charForm_writeChar (c : Char) : CharForm c (writeChar c) := by
  unfold writeChar
  split
  · rename_i hplain
    refine .plain fun hmark => ?_
    have hmarks : marks.all fun c => !(c.isAlphanum || ['_', '.', '-', '~'].contains c) := by
      decide
    exact absurd (List.all_eq_true.1 hmarks c hmark) (by rw [hplain]; decide)
  · split
    · rename_i hspace
      subst hspace
      exact .space
    · rw [List.flatMap_def]
      exact .escaped (List.forall₂_map_right_iff.2 (List.forall₂_same.2 fun b _ =>
        byteForm_percent b))

theorem partForm_writePart (s : String) : PartForm s (writePart s) := by
  rw [writePart, List.flatMap_def]
  exact .intro (List.forall₂_map_right_iff.2 (List.forall₂_same.2 fun c _ => charForm_writeChar c))

theorem isWriter_writePairs : IsWriter writePairs := fun _ _ =>
  .intro (List.forall₂_map_right_iff.2 (List.forall₂_same.2 fun pair _ =>
    .intro (partForm_writePart pair.1) (partForm_writePart pair.2)))

end Url

/-- A range query in which a space, an ampersand and a letter with an accent have to be escaped, and
whose level of statistics is empty. -/
def Query.accented : Query :=
  .range ⟨"up\x7bjob=\"caf\u00e9 & bar\"\x7d", "0", "300", "1m", none, some ""⟩

/-- A form at an address with two slashes at its end. -/
theorem Client.sends_query_accented : ∃ c, make "http://prom:9090//" none true = .ok c ∧
    (c.request .accented).url = "http://prom:9090/api/v1/query_range" ∧
    (c.request .accented).formPairs Url.writePairs =
      [("query", "up\x7bjob=\"caf\u00e9 & bar\"\x7d"), ("start", "0"), ("end", "300"),
        ("step", "1m"), ("stats", "")] := by
  obtain ⟨c, hmake⟩ : ∃ c, make "http://prom:9090//" none true = .ok c := ⟨_, rfl⟩
  obtain ⟨-, -, -, -, hform, -⟩ :=
    sends_query hmake (by decide) (by decide) Url.isWriter_writePairs .accented
  refine ⟨c, hmake, ?_, hform⟩
  rw [request_eq, (make_eq_ok hmake).1]
  cases c.usePost <;> rfl

end MetricQuery
