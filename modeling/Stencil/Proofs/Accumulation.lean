import Stencil.Extraction.Extract
import Stencil.Proofs.Compilation

/-! How the captures of patterns add up to bindings.

The pairs of a name and a captured text are reported one after the other, in the order of passages
and then of placeholders. A name keeps the place at which it was first reported and the value that
was reported last.
-/

set_option autoImplicit false

namespace Stencil

theorem Compiled.distinct_of_nodup {names : List Text} (nodup : names.Nodup) :
    distinct names = names := by
  induction names with
  | nil => rfl
  | cons name rest ih =>
    obtain ⟨fresh, nodup⟩ := List.nodup_cons.mp nodup
    rw [distinct, ih nodup, List.filter_eq_self.mpr]
    intro other member
    simpa using fun same : other = name => fresh (same ▸ member)

/-- The last text that is paired with a name. -/
def lastUnder (pairs : List (Text × Text)) (name : Text) : Option Text :=
  pairs.reverse.lookup name

theorem mem_of_lastUnder {pairs : List (Text × Text)} {name value : Text}
    (known : lastUnder pairs name = some value) : (name, value) ∈ pairs := by
  obtain ⟨before, after, same, -⟩ := List.lookup_eq_some_iff.mp known
  rw [← List.mem_reverse, same]
  exact List.mem_append_right _ List.mem_cons_self

theorem lastUnder_of_mem {pairs : List (Text × Text)} {name value : Text}
    (distinct : (pairs.map Prod.fst).Nodup) (member : (name, value) ∈ pairs) :
    lastUnder pairs name = some value := by
  rw [lastUnder, List.lookup_eq_some_iff]
  obtain ⟨before, after, rfl⟩ := List.append_of_mem member
  refine ⟨after.reverse, before.reverse, by simp, fun pair isLater => ?_⟩
  rw [List.map_append, List.map_cons] at distinct
  have fresh := (List.nodup_cons.mp (List.nodup_append.mp distinct).2.1).1
  simp only [bne_iff_ne, ne_eq]
  rintro rfl
  exact fresh (List.mem_map.mpr ⟨pair, List.mem_reverse.mp isLater, rfl⟩)

theorem lastUnder_eq_lookup {pairs : List (Text × Text)} (distinct : (pairs.map Prod.fst).Nodup)
    (name : Text) : lastUnder pairs name = pairs.lookup name := by
  cases known : pairs.lookup name with
  | none =>
    rw [List.lookup_eq_none_iff] at known
    rw [lastUnder, List.lookup_eq_none_iff]
    exact fun pair member => known pair (List.mem_reverse.mp member)
  | some value =>
    obtain ⟨before, after, rfl, -⟩ := List.lookup_eq_some_iff.mp known
    exact lastUnder_of_mem distinct (List.mem_append_right _ List.mem_cons_self)

theorem lastUnder_append (first later : List (Text × Text)) (name : Text) :
    lastUnder (first ++ later) name = (lastUnder later name).or (lastUnder first name) := by
  rw [lastUnder, List.reverse_append, List.lookup_append]
  rfl

theorem forall_lastUnder_zip_iff {names texts values : List Text} {f : Text → Text}
    (distinct : names.Nodup) (long : texts.length = names.length)
    (count : values.length = names.length) :
    (∀ pair ∈ names.zip values, (lastUnder (names.zip texts) pair.1).map f = some pair.2) ↔
      texts.map f = values := by
  have named : ((names.zip texts).map Prod.fst).Nodup := by
    rwa [List.map_fst_zip long.ge]
  constructor
  · intro agrees
    refine List.ext_getElem (by rw [List.length_map, long, count]) fun i left right => ?_
    rw [List.length_map] at left
    have bound : i < names.length := by omega
    have agree := agrees (names[i], values[i]) (List.mem_iff_getElem.mpr
      ⟨i, by rw [List.length_zip]; omega, List.getElem_zip⟩)
    have member : (names[i], texts[i]) ∈ names.zip texts := List.mem_iff_getElem.mpr
      ⟨i, by rw [List.length_zip]; omega, List.getElem_zip⟩
    rw [lastUnder_of_mem named member] at agree
    rw [List.getElem_map]
    exact Option.some.inj agree
  · rintro rfl ⟨name, value⟩ member
    rw [List.zip_map_right] at member
    obtain ⟨⟨other, text⟩, isPair, same⟩ := List.mem_map.mp member
    cases same
    exact congrArg (Option.map f) (lastUnder_of_mem named isPair)

namespace Bindings

/-- Binds names to values, one pair after the other. -/
def bindAll (bindings : Bindings) (pairs : List (Text × Text)) : Bindings :=
  pairs.foldl (fun bindings (name, value) => bindings.bind name value) bindings

theorem get?_bindAll (bindings : Bindings) (pairs : List (Text × Text)) (name : Text) :
    (bindings.bindAll pairs).get? name = (lastUnder pairs name).or (bindings.get? name) := by
  induction pairs generalizing bindings with
  | nil => rfl
  | cons pair rest ih =>
    obtain ⟨bound, value⟩ := pair
    show ((bindings.bind bound value).bindAll rest).get? name = _
    rw [ih, get?_bind, lastUnder, lastUnder, List.reverse_cons, List.lookup_append,
      List.lookup_singleton]
    cases rest.reverse.lookup name with
    | some last => rfl
    | none => by_cases same : name = bound <;> simp [same]

theorem names_bindAll (bindings : Bindings) (pairs : List (Text × Text)) :
    (bindings.bindAll pairs).names = bindings.names ++
      (Compiled.distinct (pairs.map Prod.fst)).filter fun name => !bindings.names.contains name := by
  induction pairs generalizing bindings with
  | nil => simp [bindAll, Compiled.distinct]
  | cons pair rest ih =>
    obtain ⟨bound, value⟩ := pair
    show ((bindings.bind bound value).bindAll rest).names = _
    rw [ih, names_bind, List.map_cons, Compiled.distinct, List.filter_cons, List.filter_filter]
    -- A known name keeps its place; a new one goes to the end, and is known from there on.
    by_cases known : bound ∈ bindings.names
    · simp only [known, if_true, List.contains_iff_mem.mpr known, Bool.not_true, Bool.false_eq_true,
        if_false]
      congr 1
      refine List.filter_congr fun name _ => ?_
      by_cases same : name = bound
      · simp [same, known]
      · simp [same]
    · have fresh : bindings.names.contains bound = false := by simpa using known
      simp only [known, if_false, fresh, Bool.not_false, if_true, List.append_assoc,
        List.singleton_append]
      congr 2
      refine List.filter_congr fun name _ => ?_
      by_cases same : name = bound <;> simp [same]

/-- Binds names to cleaned texts, one pair after the other. -/
def report (bindings : Bindings) (pairs : List (Text × Text)) : Bindings :=
  pairs.foldl (fun bindings (name, value) => bindings.bind name (Text.clean value)) bindings

theorem report_append (bindings : Bindings) (first later : List (Text × Text)) :
    bindings.report (first ++ later) = (bindings.report first).report later :=
  List.foldl_append

theorem report_eq_bindAll (bindings : Bindings) (pairs : List (Text × Text)) :
    bindings.report pairs =
      bindings.bindAll (pairs.map fun (name, value) => (name, Text.clean value)) := by
  rw [bindAll, List.foldl_map]
  rfl

theorem lookup_map_snd (pairs : List (Text × Text)) (f : Text → Text) (name : Text) :
    (pairs.map fun (bound, value) => (bound, f value)).lookup name =
      (pairs.lookup name).map f := by
  induction pairs with
  | nil => rfl
  | cons pair rest ih =>
    obtain ⟨bound, value⟩ := pair
    rw [List.map_cons, lookup_pair, lookup_pair, ih]
    split <;> rfl

theorem get?_report (bindings : Bindings) (pairs : List (Text × Text)) (name : Text) :
    (bindings.report pairs).get? name =
      ((lastUnder pairs name).map Text.clean).or (bindings.get? name) := by
  rw [report_eq_bindAll, get?_bindAll, lastUnder, ← List.map_reverse, lookup_map_snd, lastUnder]

theorem names_report (bindings : Bindings) (pairs : List (Text × Text)) :
    (bindings.report pairs).names = bindings.names ++
      (Compiled.distinct (pairs.map Prod.fst)).filter fun name => !bindings.names.contains name := by
  rw [report_eq_bindAll, names_bindAll, List.map_map]
  rfl

theorem names_report_empty (pairs : List (Text × Text)) :
    (empty.report pairs).names = Compiled.distinct (pairs.map Prod.fst) := by
  rw [names_report, List.filter_eq_self.mpr fun _ _ => by simp [names, empty]]
  rfl

theorem isEmpty_report_empty (pairs : List (Text × Text)) :
    (empty.report pairs).isEmpty = pairs.isEmpty := by
  have named := names_report_empty pairs
  cases pairs with
  | nil => rfl
  | cons pair rest =>
    cases reported : (empty.report (pair :: rest)).pairs with
    | nil => simp [names, reported, Compiled.distinct] at named
    | cons => simp [isEmpty, reported]

theorem pairs_eq (bindings : Bindings) :
    bindings.pairs = bindings.names.map fun name => (name, (bindings.get? name).getD []) := by
  rw [names, List.map_map, ← List.map_id bindings.pairs, List.map_map]
  apply List.map_congr_left
  rintro ⟨name, value⟩ member
  have held : bindings.get? name = some value := by
    rw [get?, ← lastUnder_eq_lookup bindings.distinct, lastUnder_of_mem bindings.distinct member]
  simp only [Function.comp_apply, id_eq, held, Option.getD_some]

theorem eq_of_names {first second : Bindings} (names : first.names = second.names)
    (values : ∀ name, first.get? name = second.get? name) : first = second := by
  have pairs : first.pairs = second.pairs := by
    rw [first.pairs_eq, second.pairs_eq, names]
    simp only [values]
  cases first
  cases second
  cases pairs
  rfl

/-- The bindings of one, then those of another. -/
def update (first second : Bindings) : Bindings :=
  first.bindAll second.pairs

theorem get?_update (first second : Bindings) (name : Text) :
    (first.update second).get? name = (second.get? name).or (first.get? name) := by
  rw [update, get?_bindAll, lastUnder_eq_lookup second.distinct]
  rfl

theorem names_update (first second : Bindings) :
    (first.update second).names =
      first.names ++ second.names.filter fun name => !first.names.contains name := by
  rw [update, names_bindAll, Compiled.distinct_of_nodup second.distinct]
  rfl

theorem record_some (bindings : Bindings) (names values : List Text)
    (enough : names.length ≤ values.length) :
    bindings.record names (values.map some) = .ok (bindings.report (names.zip values)) := by
  induction names generalizing bindings values with
  | nil => simp [record, report]
  | cons name names ih =>
    cases values with
    | nil => simp at enough
    | cons value values => exact ih _ _ (Nat.le_of_succ_le_succ enough)

end Bindings

namespace Passage

/-- What a search for a passage captures, in the order of its placeholders. -/
def values? (mode : MatchMode) (passage : Passage) (text : Text) : Option (List Text) :=
  (Pattern.search? mode (passage.pattern mode) text).map fun captures => captures.filterMap id

/-- The names of a passage with what a search for it captures. -/
def found (mode : MatchMode) (text : Text) (passage : Passage) : List (Text × Text) :=
  match passage.values? mode text with
  | some values => passage.names.zip values
  | none => []

theorem captures_of_search? {mode : MatchMode} {passage : Passage} {text : Text}
    {captures : Pattern.Captures}
    (matched : Pattern.search? mode (passage.pattern mode) text = some captures) :
    ∃ values : List Text, captures = values.map some ∧ values.length = passage.names.length := by
  rw [Pattern.search?_eq_leftmost?, pattern_eq] at matched
  obtain ⟨start, -, here, -⟩ := Pattern.exists_of_leftmost? matched
  simp only [Pattern.matchHere?] at here
  split at here
  · obtain ⟨values, same, long⟩ := Pattern.captures_of_spaced here
    exact ⟨values, same, by rw [long, List.length_map, length_names]⟩
  · simp at here

theorem search?_eq_values? (mode : MatchMode) (passage : Passage) (text : Text) :
    Pattern.search? mode (passage.pattern mode) text =
      (passage.values? mode text).map fun values => values.map some := by
  unfold values?
  cases matched : Pattern.search? mode (passage.pattern mode) text with
  | none => rfl
  | some captures =>
    obtain ⟨values, rfl, -⟩ := captures_of_search? matched
    simp

theorem values?_eq_some_iff {mode : MatchMode} {passage : Passage} {text : Text}
    {values : List Text} :
    passage.values? mode text = some values ↔
      Pattern.search? mode (passage.pattern mode) text = some (values.map some) := by
  rw [search?_eq_values?]
  cases passage.values? mode text with
  | none => simp
  | some others =>
    simp [List.map_inj_right fun _ _ => Option.some.inj]

theorem length_values {mode : MatchMode} {passage : Passage} {text : Text} {values : List Text}
    (captured : passage.values? mode text = some values) : values.length = passage.names.length := by
  obtain ⟨others, same, long⟩ := captures_of_search? (values?_eq_some_iff.mp captured)
  rw [← long, ← List.length_map (f := some), same, List.length_map]

theorem isSome_values? {mode : MatchMode} {passage : Passage} {text : Text} :
    (passage.values? mode text).isSome ↔
      (Pattern.search? mode (passage.pattern mode) text).isSome := by
  rw [values?, Option.isSome_map]

theorem found_eq_nil_iff {mode : MatchMode} {passage : Passage} {text : Text} :
    passage.found mode text = [] ↔ passage.slots ≠ [] → passage.values? mode text = none := by
  unfold found
  cases captured : passage.values? mode text with
  | none => simp
  | some values =>
    have long := length_values captured
    rw [length_names] at long
    have blank : values = [] ↔ passage.slots = [] := by
      rw [← List.length_eq_zero_iff, long, List.length_eq_zero_iff]
    simp [List.zip_eq_nil_iff, names, blank]

section
variable {mode : MatchMode} {passage : Passage} {text : Text} {values : List Text}

theorem found_of_values (captured : passage.values? mode text = some values) :
    passage.found mode text = passage.names.zip values := by
  simp only [found, captured]

theorem map_fst_found (captured : passage.values? mode text = some values) :
    (passage.found mode text).map Prod.fst = passage.names := by
  rw [found_of_values captured, List.map_fst_zip (length_values captured).ge]

theorem isEmpty_found (placeholders : passage.slots ≠ [])
    (captured : passage.values? mode text = some values) :
    (passage.found mode text).isEmpty = false := by
  rw [List.isEmpty_eq_false_iff, ne_eq, found_eq_nil_iff, captured]
  exact fun missing => absurd (missing placeholders) (by simp)

end

end Passage

namespace Compiled

/-- The names and texts that searching for the passages of a template comes to. -/
def found (mode : MatchMode) (content text : Text) : List (Text × Text) :=
  (mode.passages content).flatMap (Passage.found mode text)

theorem collect_passages (mode : MatchMode) (text : Text) (passages : List Passage)
    (bindings : Bindings) :
    collect mode text .never ((passages.map (Passage.pattern mode)).zip (passages.map Passage.names))
        bindings =
      .ok (bindings.report (passages.flatMap (Passage.found mode text))) := by
  induction passages generalizing bindings with
  | nil => rfl
  | cons passage rest ih =>
    simp only [List.map_cons, List.zip_cons_cons, List.flatMap_cons, Bindings.report_append]
    rw [collect, Passage.search?_eq_values?]
    cases captured : passage.values? mode text with
    | none =>
      have nothing : passage.found mode text = [] := by simp only [Passage.found, captured]
      rw [nothing]
      exact ih bindings
    | some values =>
      have pairs := Passage.found_of_values captured
      have recorded := Bindings.record_some bindings passage.names values
        (Passage.length_values captured).ge
      rw [pairs]
      simp only [Cutoff.never, Bool.false_eq_true, if_false, Option.map_some, recorded]
      exact ih _

/-- Extraction without a limit reports what was found, and nothing when nothing was. -/
theorem extract_ofTemplate (mode : MatchMode) (content text : Text) (source : String) :
    (ofTemplate mode content).extract .never source text =
      .ok (if (found mode content text).isEmpty then none
        else some ⟨.report .empty (found mode content text), source⟩) := by
  simp only [extract, ofTemplate, collect_passages, Bindings.isEmpty_report_empty]
  rfl

end Compiled

end Stencil
