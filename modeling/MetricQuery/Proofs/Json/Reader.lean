import MetricQuery.Proofs.Json.Path
import MetricQuery.Proofs.Json.Token
import MetricQuery.Proofs.Outcome

/-!
# Reading what is written

A text that the grammar gives to a value is read as that value, by every dialect whose limits its
numbers and its depth respect. The bound on the depth decides only whether a text is read, not what
is read from it.
-/

namespace MetricQuery
namespace Json

variable {r : Repeats} {d : Dialect} {s next : State} {t : Token} {cs rest : List Char}

/-! ### Tokens one after another -/

theorem readFrom_eq : readFrom r d s cs =
    match cs.dropWhile isSpace with
    | [] => s.finish
    | first :: rest =>
      match s.advance r d (Token.read d first rest).1 with
      | .ok next => readFrom r d next (Token.read d first rest).2
      | .error f => .error f := by
  rw [readFrom]
  split
  case h_1 heq =>
    rewrite [heq]
    rfl
  case h_2 heq =>
    rewrite [heq]
    rfl

theorem readFrom_blank {blanks : List Char} (h : Blank blanks) :
    readFrom r d s (blanks ++ cs) = readFrom r d s cs := by
  have hdrop : (blanks ++ cs).dropWhile isSpace = cs.dropWhile isSpace :=
    List.dropWhile_append_of_pos h
  rw [readFrom_eq, hdrop, ← readFrom_eq]

theorem readFrom_end {blanks : List Char} (h : Blank blanks) :
    readFrom r d s blanks = s.finish := by
  rw [← List.append_nil blanks, readFrom_blank h, readFrom_eq]
  rfl

theorem readFrom_cons {first : Char} (hfirst : isSpace first = false)
    (hread : Token.read d first cs = (t, rest)) (hadvance : s.advance r d t = .ok next) :
    readFrom r d s (first :: cs) = readFrom r d next rest := by
  rw [readFrom_eq, List.dropWhile_cons_of_neg (by simp [hfirst])]
  simp only [hread, hadvance]

theorem readFrom_token (h : Token.Reads d cs t) (hadvance : s.advance r d t = .ok next)
    (hrest : Scan.Stops Token.extendsNumber rest) :
    readFrom r d s (cs ++ rest) = readFrom r d next rest := by
  obtain ⟨first, tail, rfl, hfirst, hread⟩ := h
  exact readFrom_cons hfirst (hread rest hrest) hadvance

theorem readFrom_mark {mark : Char} (hmark : Token.mark? mark = some t)
    (hspace : isSpace mark = false) (hadvance : s.advance r d t = .ok next) :
    readFrom r d s (mark :: rest) = readFrom r d next rest :=
  readFrom_cons hspace (by simp only [Token.read, hmark]) hadvance

/-! ### States -/

/-- A new name joins the fields of a record, whatever becomes of names that stand again. -/
theorem Repeats.join_of_notMem {name : String} {v : Json} {fields : Fields}
    (h : name ∉ fields.map Prod.fst) : r.join name v fields = fields ++ [(name, v)] := by
  cases r with
  | last => exact Keyed.put_of_notMem h
  | all => rfl

/-- A dialect has room for lists and records that lie in each other `depth` times. -/
def Dialect.HasRoom (d : Dialect) (depth : ℕ) : Prop := ∀ m ∈ d.maxDepth, depth ≤ m

/-- Everything in a value in `depth` lists and records is within the depth of a dialect. -/
def Dialect.Holds (d : Dialect) (depth : ℕ) (v : Json) : Prop :=
  ∀ path u, at? path v = some u → d.HasRoom (depth + path.length)

theorem Dialect.Holds.hasRoom {depth : ℕ} {v : Json} (h : d.Holds depth v) : d.HasRoom depth :=
  h [] v rfl

theorem Dialect.HasRoom.mono {depth depth' : ℕ} (h : d.HasRoom depth) (hle : depth' ≤ depth) :
    d.HasRoom depth' :=
  fun m hm => Nat.le_trans hle (h m hm)

theorem Dialect.Holds.child {depth : ℕ} {v u : Json} {step : Step} (h : d.Holds depth v)
    (hu : child? step v = some u) : d.Holds (depth + 1) u := by
  intro path w hw
  refine (h (step :: path) w (at?_cons_eq_some_iff.2 ⟨u, hu, hw⟩)).mono ?_
  rw [List.length_cons]
  omega

theorem Dialect.Holds.item {depth : ℕ} {vs : List Json} {v : Json} (h : d.Holds depth (.list vs))
    (hv : v ∈ vs) : d.Holds (depth + 1) v := by
  obtain ⟨i, hi⟩ := List.mem_iff_getElem?.1 hv
  have hchild : child? (.item i) (.list vs) = some v := hi
  exact h.child hchild

theorem Dialect.Holds.field {depth : ℕ} {fields : Fields} {name : String} {v : Json}
    (h : d.Holds depth (.record fields)) (hnames : (fields.map Prod.fst).Nodup)
    (hv : (name, v) ∈ fields) : d.Holds (depth + 1) v :=
  have hchild : child? (.field name) (.record fields) = some v := field?_of_mem hnames hv
  h.child hchild

theorem State.advance_of_step (h : s.step r t = .ok next) (hroom : d.HasRoom next.depth) :
    s.advance r d t = .ok next := by
  rw [advance, h]
  refine if_neg fun hdeep => ?_
  obtain ⟨m, hm, hlt⟩ := (Option.any_eq_true _ _).1 hdeep
  exact Nat.not_le.2 (of_decide_eq_true hlt) (hroom m hm)

variable {frames : List Frame} {e : Expected} {v : Json}

theorem State.depth_close_le (h : close r frames v = .ok next) : next.depth ≤ frames.length := by
  unfold close at h
  split at h <;> cases h
  all_goals simp [depth]

theorem State.takesValue_eq_true (he : takesValue e) : e = .value ∨ e = .valueOrEnd := by
  cases e <;> simp [takesValue] at he ⊢

theorem State.advance_atom (he : takesValue e) (h : close r frames v = .ok next)
    (hroom : d.HasRoom frames.length) : advance r d (.inside frames e) (.atom v) = .ok next := by
  have hstep : step r (.inside frames e) (.atom v) = close r frames v := by
    obtain rfl | rfl := takesValue_eq_true he <;> cases v <;> rfl
  exact advance_of_step (hstep.trans h) (hroom.mono (depth_close_le h))

theorem State.advance_openList (he : takesValue e) (hroom : d.HasRoom frames.length) :
    advance r d (.inside frames e) .openList = .ok (.inside (.list [] :: frames) .valueOrEnd) := by
  refine advance_of_step ?_ hroom
  obtain rfl | rfl := takesValue_eq_true he <;> rfl

theorem State.advance_openRecord (he : takesValue e) (hroom : d.HasRoom frames.length) :
    advance r d (.inside frames e) .openRecord =
      .ok (.inside (.record [] :: frames) .nameOrEnd) := by
  refine advance_of_step ?_ hroom
  obtain rfl | rfl := takesValue_eq_true he <;> rfl

theorem State.advance_closeList {items : List Json} (hlast : e = .valueOrEnd ∨ e = .separator)
    (h : close r frames (.list items.reverse) = .ok next) (hroom : d.HasRoom frames.length) :
    advance r d (.inside (.list items :: frames) e) .closeList = .ok next := by
  refine advance_of_step ?_ (hroom.mono (depth_close_le h))
  obtain rfl | rfl := hlast <;> exact h

theorem State.advance_closeRecord {fields : Fields} (hlast : e = .nameOrEnd ∨ e = .separator)
    (h : close r frames (.record fields) = .ok next) (hroom : d.HasRoom frames.length) :
    advance r d (.inside (.record fields :: frames) e) .closeRecord = .ok next := by
  refine advance_of_step ?_ (hroom.mono (depth_close_le h))
  obtain rfl | rfl := hlast <;> exact h

/-- Where the name of a field may come next. -/
def State.TakesName (e : Expected) : Prop := e = .name ∨ e = .nameOrEnd

theorem State.advance_name {fields : Fields} (he : TakesName e) (name : String)
    (hroom : d.HasRoom (frames.length + 1)) :
    advance r d (.inside (.record fields :: frames) e) (.atom (.text name)) =
      .ok (.inside (.field fields name :: frames) .colon) := by
  refine advance_of_step ?_ hroom
  obtain rfl | rfl := he <;> rfl

/-! ### Parts of documents -/

theorem stops_of_head {c : Char} (hc : Token.extendsNumber c = false) (rest : List Char) :
    Scan.Stops Token.extendsNumber (c :: rest) := by
  rintro _ ⟨⟩
  exact hc

theorem stops_blank {blanks : List Char} (h : Blank blanks)
    (hrest : Scan.Stops Token.extendsNumber rest) :
    Scan.Stops Token.extendsNumber (blanks ++ rest) := by
  cases blanks with
  | nil => exact hrest
  | cons c blanks =>
    refine stops_of_head ?_ _
    have hc := h c List.mem_cons_self
    simp only [isSpace, Bool.or_eq_true, beq_iff_eq] at hc
    obtain ((rfl | rfl) | rfl) | rfl := hc <;> rfl

/-- A part of a document may come next, and leads to the given state. -/
inductive Leads (r : Repeats) : Part → List Frame → Expected → State → Prop where
  | value {v : Json} {frames : List Frame} {e : Expected} {next : State}
    (he : State.takesValue e) (hclose : State.close r frames v = .ok next) :
    Leads r (.value v) frames e next
  | items {vs kept : List Json} {frames : List Frame} {e : Expected} (he : State.takesValue e) :
    Leads r (.items vs) (.list kept :: frames) e
      (.inside (.list (vs.reverse ++ kept) :: frames) .separator)
  | field {name : String} {v : Json} {kept : Fields} {frames : List Frame} {e : Expected}
    (he : State.TakesName e) (hnew : name ∉ kept.map Prod.fst) :
    Leads r (.field name v) (.record kept :: frames) e
      (.inside (.record (kept ++ [(name, v)]) :: frames) .separator)
  | fields {fields kept : Fields} {frames : List Frame} {e : Expected}
    (he : State.TakesName e) (hnames : ((kept ++ fields).map Prod.fst).Nodup) :
    Leads r (.fields fields) (.record kept :: frames) e
      (.inside (.record (kept ++ fields) :: frames) .separator)

namespace Leads

variable {name : String} {kept fields : Fields} {vs kept' : List Json}

theorem item (he : State.takesValue e) : Leads r (.value v) (.list vs :: frames) e
    (.inside (.list (v :: vs) :: frames) .separator) := value he rfl

theorem restItems : Leads r (.items vs) (.list (v :: kept') :: frames) .value
    (.inside (.list ((v :: vs).reverse ++ kept') :: frames) .separator) := by
  rw [List.reverse_cons, List.append_assoc, List.singleton_append]
  exact items rfl

theorem ofField (hnew : name ∉ kept.map Prod.fst) : Leads r (.value v) (.field kept name :: frames)
    .value (.inside (.record (kept ++ [(name, v)]) :: frames) .separator) := by
  refine value rfl ?_
  rw [State.close, Repeats.join_of_notMem hnew]

theorem firstField (he : State.TakesName e)
    (hnames : ((kept ++ (name, v) :: fields).map Prod.fst).Nodup) :
    Leads r (.field name v) (.record kept :: frames) e
      (.inside (.record (kept ++ [(name, v)]) :: frames) .separator) := by
  refine field he ?_
  rw [List.map_append, List.nodup_append'] at hnames
  exact fun hmem => hnames.2.2 hmem List.mem_cons_self

theorem allFields (hnames : (fields.map Prod.fst).Nodup) : Leads r (.fields fields)
    (.record [] :: frames) .nameOrEnd (.inside (.record fields :: frames) .separator) :=
  Leads.fields (.inr rfl) hnames

theorem restFields (hnames : ((kept ++ (name, v) :: fields).map Prod.fst).Nodup) :
    Leads r (.fields fields) (.record (kept ++ [(name, v)]) :: frames) .name
      (.inside (.record (kept ++ (name, v) :: fields) :: frames) .separator) := by
  have hsplit : kept ++ (name, v) :: fields = kept ++ [(name, v)] ++ fields := by
    rw [List.append_assoc, List.singleton_append]
  rw [hsplit] at hnames ⊢
  exact Leads.fields (.inl rfl) hnames

end Leads

section Steps

variable {vs : List Json} {kept : Fields}

theorem readFrom_openList (he : State.takesValue e) (hroom : d.HasRoom frames.length) :
    readFrom r d (.inside frames e) ('[' :: (cs ++ [']']) ++ rest) =
      readFrom r d (.inside (.list [] :: frames) .valueOrEnd) (cs ++ ']' :: rest) := by
  rw [List.cons_append, List.append_assoc]
  exact readFrom_mark rfl rfl (State.advance_openList he hroom)

theorem readFrom_openRecord (he : State.takesValue e) (hroom : d.HasRoom frames.length) :
    readFrom r d (.inside frames e) ('\x7b' :: (cs ++ ['\x7d']) ++ rest) =
      readFrom r d (.inside (.record [] :: frames) .nameOrEnd) (cs ++ '\x7d' :: rest) := by
  rw [List.cons_append, List.append_assoc]
  exact readFrom_mark rfl rfl (State.advance_openRecord he hroom)

theorem readFrom_closeList (hlast : e = .valueOrEnd ∨ e = .separator)
    (hclose : State.close r frames (.list vs.reverse) = .ok next)
    (hroom : d.HasRoom frames.length) :
    readFrom r d (.inside (.list vs :: frames) e) (']' :: rest) = readFrom r d next rest :=
  readFrom_mark rfl rfl (State.advance_closeList hlast hclose hroom)

theorem readFrom_closeRecord (hlast : e = .nameOrEnd ∨ e = .separator)
    (hclose : State.close r frames (.record kept) = .ok next) (hroom : d.HasRoom frames.length) :
    readFrom r d (.inside (.record kept :: frames) e) ('\x7d' :: rest) = readFrom r d next rest :=
  readFrom_mark rfl rfl (State.advance_closeRecord hlast hclose hroom)

theorem readFrom_nextItem (hroom : d.HasRoom (frames.length + 1)) :
    readFrom r d (.inside (.list vs :: frames) .separator) (',' :: rest) =
      readFrom r d (.inside (.list vs :: frames) .value) rest :=
  readFrom_mark rfl rfl (State.advance_of_step rfl hroom)

theorem readFrom_nextField (hroom : d.HasRoom (frames.length + 1)) :
    readFrom r d (.inside (.record kept :: frames) .separator) (',' :: rest) =
      readFrom r d (.inside (.record kept :: frames) .name) rest :=
  readFrom_mark rfl rfl (State.advance_of_step rfl hroom)

/-- A name and the colon after it are read, with blanks around the name. -/
theorem readFrom_name {s letters before after : List Char} (hbefore : Blank before)
    (hname : Letters s letters) (hafter : Blank after) (he : State.TakesName e)
    (hroom : d.HasRoom (frames.length + 1)) :
    readFrom r d (.inside (.record kept :: frames) e)
        (before ++ '\x22' :: (letters ++ '\x22' :: (after ++ ':' :: cs)) ++ rest) =
      readFrom r d (.inside (.field kept (String.ofList s) :: frames) .value) (cs ++ rest) := by
  calc readFrom r d (.inside (.record kept :: frames) e)
        (before ++ '\x22' :: (letters ++ '\x22' :: (after ++ ':' :: cs)) ++ rest)
    _ = readFrom r d (.inside (.record kept :: frames) e)
        ('\x22' :: (letters ++ ['\x22']) ++ (after ++ ':' :: (cs ++ rest))) := by
      rw [List.append_assoc, readFrom_blank hbefore]
      simp only [List.cons_append, List.append_assoc, List.nil_append]
    _ = readFrom r d (.inside (.field kept (String.ofList s) :: frames) .colon)
        (after ++ ':' :: (cs ++ rest)) :=
      readFrom_token (Token.reads_text hname) (State.advance_name he _ hroom)
        (stops_blank hafter (stops_of_head rfl _))
    _ = readFrom r d (.inside (.field kept (String.ofList s) :: frames) .value) (cs ++ rest) := by
      rw [readFrom_blank hafter]
      exact readFrom_mark rfl rfl (State.advance_of_step rfl hroom)

end Steps

/-- A text is read as a part of a document, in every state in which the part may come, whatever
follows that does not make a number longer. -/
def ReadsAs (r : Repeats) (d : Dialect) (part : Part) (cs : List Char) : Prop :=
  ∀ ⦃frames e next rest⦄, Leads r part frames e next →
    (∀ v ∈ part.values, d.Holds frames.length v) → Scan.Stops Token.extendsNumber rest →
    readFrom r d (.inside frames e) (cs ++ rest) = readFrom r d next rest

theorem readsAs_atom (h : Token.Reads d cs (.atom v)) : ReadsAs r d (.value v) cs := by
  rintro _ _ next rest ⟨he, hclose⟩ hholds hrest
  have hroom := (hholds v List.mem_cons_self).hasRoom
  exact readFrom_token h (State.advance_atom he hclose hroom) hrest

/-- Every part of a document whose numbers are within the limits of a dialect is read. -/
theorem readsAs_of_written {part : Part} {ns : List Number} (h : Written part cs ns)
    (hns : ∀ n ∈ ns, Token.Respects d n) : ReadsAs r d part cs := by
  -- on how the part is written; `Leads` says which frame each smaller part is read into
  induction h with
  | padded hbefore _ hafter ih =>
    intro frames e next rest hleads hholds hrest
    rw [List.append_assoc, List.append_assoc, readFrom_blank hbefore,
      ih hns hleads hholds (stops_blank hafter hrest), readFrom_blank hafter]
  | null => exact readsAs_atom Token.reads_null
  | «true» => exact readsAs_atom Token.reads_true
  | «false» => exact readsAs_atom Token.reads_false
  | number n => exact readsAs_atom (Token.reads_number (hns n List.mem_cons_self))
  | text hs => exact readsAs_atom (Token.reads_text hs)
  | emptyList hblanks =>
    rintro frames e next rest ⟨he, hclose⟩ hholds hrest
    have hroom := (hholds _ List.mem_cons_self).hasRoom
    rw [readFrom_openList he hroom, readFrom_blank hblanks,
      readFrom_closeList (.inl rfl) hclose hroom]
  | @list vs cs _ _ ih =>
    rintro frames e next rest ⟨he, hclose⟩ hholds hrest
    have hlist := hholds _ List.mem_cons_self
    -- the frame keeps the items in reverse
    rw [← List.reverse_reverse vs, ← List.append_nil vs.reverse] at hclose
    rw [readFrom_openList he hlist.hasRoom,
      ih hns (.items rfl) (fun v hv => hlist.item hv) (stops_of_head rfl rest),
      readFrom_closeList (.inr rfl) hclose hlist.hasRoom]
  | emptyRecord hblanks =>
    rintro frames e next rest ⟨he, hclose⟩ hholds hrest
    have hroom := (hholds _ List.mem_cons_self).hasRoom
    rw [readFrom_openRecord he hroom, readFrom_blank hblanks,
      readFrom_closeRecord (.inl rfl) hclose hroom]
  | @record fields cs _ _ hnames ih =>
    rintro frames e next rest ⟨he, hclose⟩ hholds hrest
    have hrecord := hholds _ List.mem_cons_self
    have hvalues : ∀ v ∈ (Part.fields fields).values, d.Holds (frames.length + 1) v := by
      intro v hv
      obtain ⟨field, hfield, rfl⟩ := List.mem_map.1 hv
      exact hrecord.field hnames hfield
    rw [readFrom_openRecord he hrecord.hasRoom,
      ih hns (.allFields hnames) hvalues (stops_of_head rfl rest),
      readFrom_closeRecord (.inr rfl) hclose hrecord.hasRoom]
  | item _ ih =>
    intro frames e next rest hleads hholds hrest
    cases hleads with
    | items he => exact ih hns (.item he) hholds hrest
  | items _ _ ihv ih =>
    intro frames e next rest hleads hholds hrest
    obtain ⟨hns, hms⟩ := List.forall_mem_append.1 hns
    obtain ⟨hv, hvs⟩ := List.forall_mem_cons.1 hholds
    cases hleads with
    | items he =>
      rw [List.append_assoc, List.cons_append,
        ihv hns (.item he) (List.forall_mem_singleton.2 hv) (stops_of_head rfl _),
        readFrom_nextItem hv.hasRoom, ih hms .restItems hvs hrest]
  | field hbefore hname hafter _ ih =>
    intro frames e next rest hleads hholds hrest
    cases hleads with
    | field he hnew =>
      have hroom := (hholds _ List.mem_cons_self).hasRoom
      rw [readFrom_name hbefore hname hafter he hroom, ih hns (.ofField hnew) hholds hrest]
  | lastField _ ih =>
    intro frames e next rest hleads hholds hrest
    cases hleads with
    | fields he hnames => exact ih hns (.firstField he hnames) hholds hrest
  | fields _ _ ihfield ih =>
    intro frames e next rest hleads hholds hrest
    obtain ⟨hns, hms⟩ := List.forall_mem_append.1 hns
    obtain ⟨hv, hmore⟩ := List.forall_mem_cons.1 hholds
    cases hleads with
    | fields he hnames =>
      rw [List.append_assoc, List.cons_append,
        ihfield hns (.firstField he hnames) (List.forall_mem_singleton.2 hv) (stops_of_head rfl _),
        readFrom_nextField hv.hasRoom, ih hms (.restFields hnames) hmore hrest]

/-! ### Numbers beyond the limits -/

/-- A text is refused as a part of a document, in every state in which the part may come, whatever
follows that does not make a number longer. -/
def Faults (r : Repeats) (d : Dialect) (part : Part) (cs : List Char) : Prop :=
  ∀ ⦃frames e next rest⦄, Leads r part frames e next → Scan.Stops Token.extendsNumber rest →
    ∃ f, readFrom r d (.inside frames e) (cs ++ rest) = .error f

theorem faults_number {n : Number} (h : ¬ Token.Respects d n) :
    Faults r d (.value n.value) n.text := by
  rintro frames e next rest ⟨he, -⟩ hrest
  obtain ⟨first, tail, htext, hfirst, hread⟩ := Token.read_of_not_respects h
  have hadvance : State.advance r d (.inside frames e) (.fault (.overlong n.whole.length)) =
      .error (.overlong n.whole.length) := by
    obtain rfl | rfl := State.takesValue_eq_true he <;> rfl
  refine ⟨.overlong n.whole.length, ?_⟩
  rw [htext, List.cons_append, readFrom_eq, List.dropWhile_cons_of_neg (by simp [hfirst])]
  simp only [hread rest hrest, hadvance]

theorem exists_mem_of_append {ns ms : List Number} (h : ∃ n ∈ ns ++ ms, ¬ Token.Respects d n)
    (hns : ¬ ∃ n ∈ ns, ¬ Token.Respects d n) : ∃ n ∈ ms, ¬ Token.Respects d n := by
  obtain ⟨n, hn, hbeyond⟩ := h
  refine ⟨n, (List.mem_append.1 hn).resolve_left fun hmem => hns ⟨n, hmem, hbeyond⟩, hbeyond⟩

/-- Without a bound on the depth, a part of a document is refused for a number beyond the limits. -/
theorem faults_of_written (hunbounded : d.maxDepth = none) {part : Part} {ns : List Number}
    (h : Written part cs ns) (hns : ∃ n ∈ ns, ¬ Token.Respects d n) : Faults r d part cs := by
  have hholds (depth : ℕ) (v : Json) : d.Holds depth v := by
    intro path u _ m hm
    rw [hunbounded] at hm
    cases hm
  have hroom (depth : ℕ) : d.HasRoom depth := (hholds depth .null).hasRoom
  induction h with
  | padded hbefore _ hafter ih =>
    intro frames e next rest hleads hrest
    rw [List.append_assoc, List.append_assoc, readFrom_blank hbefore]
    exact ih hns hleads (stops_blank hafter hrest)
  | null | «true» | «false» | text | emptyList | emptyRecord => simp at hns
  | number n => exact faults_number (by simpa using hns)
  | list _ ih =>
    rintro frames e next rest ⟨he, -⟩ hrest
    rw [readFrom_openList he (hroom _)]
    exact ih hns (.items rfl) (stops_of_head rfl rest)
  | record _ hnames ih =>
    rintro frames e next rest ⟨he, -⟩ hrest
    rw [readFrom_openRecord he (hroom _)]
    exact ih hns (.allFields hnames) (stops_of_head rfl rest)
  | item _ ih =>
    intro frames e next rest hleads hrest
    cases hleads with
    | items he => exact ih hns (.item he) hrest
  | @items _ _ _ _ ns ms hv _ ihv ih =>
    intro frames e next rest hleads hrest
    cases hleads with
    | items he =>
      rw [List.append_assoc, List.cons_append]
      -- what stands before the first number beyond the limits is read
      by_cases hfirst : ∃ n ∈ ns, ¬ Token.Respects d n
      · exact ihv hfirst (.item he) (stops_of_head rfl _)
      · have hrespects : ∀ n ∈ ns, Token.Respects d n := by simpa using hfirst
        rw [readsAs_of_written hv hrespects (.item he) (fun v _ => hholds _ v)
          (stops_of_head rfl _), readFrom_nextItem (hroom _)]
        exact ih (exists_mem_of_append hns hfirst) .restItems hrest
  | field hbefore hname hafter _ ih =>
    intro frames e next rest hleads hrest
    cases hleads with
    | field he hnew =>
      rw [readFrom_name hbefore hname hafter he (hroom _)]
      exact ih hns (.ofField hnew) hrest
  | lastField _ ih =>
    intro frames e next rest hleads hrest
    cases hleads with
    | fields he hnames => exact ih hns (.firstField he hnames) hrest
  | @fields _ _ _ _ _ ns ms hfield _ ihfield ih =>
    intro frames e next rest hleads hrest
    cases hleads with
    | fields he hnames =>
      rw [List.append_assoc, List.cons_append]
      by_cases hfirst : ∃ n ∈ ns, ¬ Token.Respects d n
      · exact ihfield hfirst (.firstField he hnames) (stops_of_head rfl _)
      · have hrespects : ∀ n ∈ ns, Token.Respects d n := by simpa using hfirst
        rw [readsAs_of_written hfield hrespects (.firstField he hnames) (fun v _ => hholds _ v)
          (stops_of_head rfl _), readFrom_nextField (hroom _)]
        exact ih (exists_mem_of_append hns hfirst) (.restFields hnames) hrest

/-! ### Whole texts -/

theorem readAs_of_written {v : Json} {ns : List Number} (h : Written (.value v) cs ns)
    (hns : ∀ n ∈ ns, Token.Respects d n) (hholds : d.Holds 0 v) : readAs r d cs = .ok v := by
  have hleads : Leads r (.value v) [] .value (.done v) := .value rfl rfl
  have hread : readFrom r d .start (cs ++ []) = readFrom r d (.done v) [] :=
    readsAs_of_written h hns hleads (List.forall_mem_singleton.2 hholds) nofun
  rw [List.append_nil] at hread
  exact hread.trans (readFrom_end nofun)

/-- A dialect without its bound on the depth. -/
def Dialect.unbounded (d : Dialect) : Dialect := { d with maxDepth := none }

theorem State.step_of_advance (h : s.advance r d t = .ok next) : s.step r t = .ok next := by
  obtain ⟨found, hstep, hfound⟩ := bind_eq_ok.1 h
  split at hfound
  · cases hfound
  · cases hfound
    exact hstep

/-- What is read within a bound on the depth is read without it. -/
theorem readFrom_unbounded {v : Json} (h : readFrom r d s cs = .ok v) :
    readFrom r d.unbounded s cs = .ok v := by
  fun_induction readFrom r d s cs with
  | case1 s cs hcs =>
    rw [readFrom_eq, hcs]
    exact h
  | case2 s cs first rest hcs token next hnext ih =>
    have hadvance : s.advance r d.unbounded (Token.read d.unbounded first rest).1 = .ok next :=
      State.advance_of_step (State.step_of_advance hnext) nofun
    rw [readFrom_eq, hcs]
    simp only [hadvance]
    exact ih h
  | case3 s cs first rest hcs token f hf => cases h

/-- A text that is read has no number beyond the limits of the dialect. -/
theorem respects_of_readAs {v w : Json} {ns : List Number} (h : Written (.value v) cs ns)
    (hread : readAs r d cs = .ok w) : ∀ n ∈ ns, Token.Respects d n := by
  by_contra hns
  have hbeyond : ∃ n ∈ ns, ¬ Token.Respects d.unbounded n := by
    simp only [not_forall] at hns
    obtain ⟨n, hn, hlong⟩ := hns
    -- the limits on numbers do not depend on the bound on the depth
    exact ⟨n, hn, fun hrespects => hlong ⟨hrespects.1, hrespects.2⟩⟩
  have hleads : Leads r (.value v) [] .value (.done v) := .value rfl rfl
  have hfaults : ∃ f, readFrom r d.unbounded .start (cs ++ []) = .error f :=
    faults_of_written rfl h hbeyond hleads nofun
  obtain ⟨f, hf⟩ := hfaults
  rw [List.append_nil] at hf
  cases hf.symm.trans (readFrom_unbounded hread)

/-- A text is read as nothing but the value that it writes. -/
theorem eq_of_readAs {v w : Json} {ns : List Number} (h : Written (.value v) cs ns)
    (hread : readAs r d cs = .ok w) : w = v := by
  have hns := respects_of_readAs h hread
  have hunbounded : readAs r d.unbounded cs = .ok v :=
    readAs_of_written h (fun n hn => ⟨(hns n hn).1, (hns n hn).2⟩) fun _ _ _ => nofun
  exact Except.ok.inj ((readFrom_unbounded hread).symm.trans hunbounded)

end Json
end MetricQuery
