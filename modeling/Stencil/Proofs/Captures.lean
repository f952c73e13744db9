import Stencil.Proofs.Surroundings

/-! What extraction makes of its searches, whatever is searched for.

Only two things count about a search: what it captured, if it found anything, and the names beside it.
A pattern that matches must have a capture for every name. Then the captures that took part are
reported under their names, in the order of patterns and of captures, and add up to bindings: a name
stands where it was first reported and is bound to what was reported for it last.
-/

set_option autoImplicit false

namespace Stencil

/-- What came of the search for a pattern: the names beside it, and its captures if it matched. -/
structure Searched where
  names : List Text
  captures : Option Pattern.Captures
  deriving DecidableEq, Repr

namespace Searched

/-- The texts of the captures that took part in a match, under their names. -/
def reports (searched : Searched) : List (Text × Text) :=
  (searched.names.zip (searched.captures.getD [])).filterMap fun (name, capture) =>
    capture.map (name, ·)

/-- The pattern matched, and there are more names beside it than it has captures. -/
def LacksGroup (searched : Searched) : Prop :=
  ∃ captures ∈ searched.captures, captures.length < searched.names.length

end Searched

namespace Bindings

/-- Reports the captures of searches, one search after the other. -/
def recordAll : Bindings → List Searched → Except ExtractionError Bindings
  | bindings, [] => .ok bindings
  | bindings, ⟨_, none⟩ :: later => bindings.recordAll later
  | bindings, ⟨names, some captures⟩ :: later =>
    match bindings.record names captures with
    | .ok bindings => bindings.recordAll later
    | .error error => .error error

theorem record_eq_report {names : List Text} {captures : Pattern.Captures}
    (enough : names.length ≤ captures.length) (bindings : Bindings) :
    bindings.record names captures = .ok (bindings.report (Searched.reports ⟨names, captures⟩)) := by
  induction names generalizing bindings captures with
  | nil => simp [record, Searched.reports, report]
  | cons name names ih =>
    cases captures with
    | nil => simp at enough
    | cons capture captures =>
      have later := ih (Nat.le_of_succ_le_succ enough)
      cases capture with
      | none => exact later bindings
      | some value => exact later (bindings.bind name (Text.clean value))

theorem record_eq_error {names : List Text} {captures : Pattern.Captures}
    (lacks : captures.length < names.length) (bindings : Bindings) :
    bindings.record names captures = .error .noSuchGroup := by
  induction names generalizing bindings captures with
  | nil => simp at lacks
  | cons name names ih =>
    cases captures with
    | nil => rfl
    | cons capture captures =>
      have later := ih (Nat.lt_of_succ_lt_succ lacks)
      cases capture with
      | none => exact later bindings
      | some value => exact later (bindings.bind name (Text.clean value))

theorem recordAll_eq_report {searched : List Searched}
    (enough : ∀ one ∈ searched, ¬ one.LacksGroup) (bindings : Bindings) :
    bindings.recordAll searched = .ok (bindings.report (searched.flatMap Searched.reports)) := by
  induction searched generalizing bindings with
  | nil => rfl
  | cons one later ih =>
    obtain ⟨here, further⟩ := List.forall_mem_cons.mp enough
    rw [List.flatMap_cons, report_append]
    obtain ⟨names, captures⟩ := one
    cases captures with
    | none =>
      have nothing : Searched.reports ⟨names, none⟩ = [] := by simp [Searched.reports]
      rw [nothing]
      exact ih further bindings
    | some captures =>
      have long : names.length ≤ captures.length :=
        Nat.le_of_not_lt fun lacks => here ⟨captures, rfl, lacks⟩
      rw [recordAll, record_eq_report long]
      exact ih further _

theorem recordAll_eq_error {searched : List Searched} (lacks : ∃ one ∈ searched, one.LacksGroup)
    (bindings : Bindings) : bindings.recordAll searched = .error .noSuchGroup := by
  -- Searches in front of the failing one may bind names, so the bindings vary along the induction.
  induction searched generalizing bindings with
  | nil => simp at lacks
  | cons one later ih =>
    obtain ⟨names, captures⟩ := one
    cases captures with
    | none =>
      refine ih ?_ bindings
      simpa [Searched.LacksGroup] using lacks
    | some captures =>
      rw [recordAll]
      by_cases short : captures.length < names.length
      · rw [record_eq_error short]
      · rw [record_eq_report (Nat.le_of_not_lt short)]
        refine ih ?_ _
        simpa [Searched.LacksGroup, short] using lacks

end Bindings

/-- What is extracted once searches are through: nothing where no name is bound. -/
def Extraction.ofSearched (source : String) (searched : List Searched) :
    Except ExtractionError (Option Extraction) :=
  match Bindings.empty.recordAll searched with
  | .ok bindings => .ok (if bindings.isEmpty then none else some ⟨bindings, source⟩)
  | .error error => .error error

/-- An outcome is what searches add up to. It is a failure when some pattern lacks a group. Else the
names are those of the captures that took part, in the order in which they first did; each is bound to
the last of its captures, cleaned; and there is nothing when no capture with a name took part. -/
structure AddsUp (source : String) (searched : List Searched)
    (outcome : Except ExtractionError (Option Extraction)) : Prop where
  fails : outcome = .error .noSuchGroup ↔ ∃ one ∈ searched, one.LacksGroup
  yields : (∀ one ∈ searched, ¬ one.LacksGroup) → ∃ result, outcome = .ok result ∧
    (result = none ↔ searched.flatMap Searched.reports = []) ∧
    ∀ extraction, result = some extraction → extraction.source = source ∧
      extraction.values.names =
        Compiled.distinct ((searched.flatMap Searched.reports).map Prod.fst) ∧
      ∀ name, extraction.values.get? name =
        (lastUnder (searched.flatMap Searched.reports) name).map Text.clean

theorem Extraction.ofSearched_eq_ok {searched : List Searched}
    (enough : ∀ one ∈ searched, ¬ one.LacksGroup) (source : String) :
    ofSearched source searched =
      .ok (if (searched.flatMap Searched.reports).isEmpty then none
        else some ⟨.report .empty (searched.flatMap Searched.reports), source⟩) := by
  simp only [ofSearched, Bindings.recordAll_eq_report enough, Bindings.isEmpty_report_empty]

theorem addsUp_ofSearched (source : String) (searched : List Searched) :
    AddsUp source searched (Extraction.ofSearched source searched) := by
  by_cases lacks : ∃ one ∈ searched, one.LacksGroup
  · have failed : Extraction.ofSearched source searched = .error .noSuchGroup := by
      rw [Extraction.ofSearched, Bindings.recordAll_eq_error lacks]
    refine ⟨iff_of_true failed lacks, fun enough => ?_⟩
    obtain ⟨one, member, short⟩ := lacks
    exact absurd short (enough one member)
  · have enough : ∀ one ∈ searched, ¬ one.LacksGroup :=
      fun one member short => lacks ⟨one, member, short⟩
    rw [Extraction.ofSearched_eq_ok enough]
    refine ⟨iff_of_false (by simp) lacks, fun _ => ⟨_, rfl, ?_, ?_⟩⟩
    · simp
    · intro extraction present
      split at present
      · exact absurd present (by simp)
      · cases present
        refine ⟨rfl, Bindings.names_report_empty _, fun name => ?_⟩
        rw [Bindings.get?_report]
        exact Option.or_none

namespace Pattern

/-- How many captures a pattern has. -/
def groups : Pattern → Nat
  | [] => 0
  | .literal _ :: rest => groups rest
  | .gap :: rest => groups rest + 1
  | .optional _ :: rest => groups rest + 1

theorem length_of_matchHere? {crosses : Char → Bool} {pattern : Pattern} {text : Text}
    {captures : Captures} (matched : matchHere? crosses pattern text = some captures) :
    captures.length = pattern.groups := by
  induction pattern generalizing text captures with
  | nil =>
    cases matched
    rfl
  | cons piece rest ih =>
    cases piece with
    | literal literal =>
      rw [matchHere?] at matched
      split at matched
      · exact ih matched
      · exact absurd matched (by simp)
    | gap =>
      obtain ⟨⟨taken, later⟩, found, rfl⟩ := Option.map_eq_some_iff.mp matched
      obtain ⟨behind, -, -, here⟩ := longestGap_sound found
      exact congrArg (· + 1) (ih here)
    | optional literal =>
      -- Taken or not, optional text has a capture of its own.
      rw [matchHere?] at matched
      split at matched
      · rename_i later taken
        cases matched
        split at taken
        · exact congrArg (· + 1) (ih taken)
        · exact absurd taken (by simp)
      · obtain ⟨later, found, rfl⟩ := Option.map_eq_some_iff.mp matched
        exact congrArg (· + 1) (ih found)

theorem length_of_search? {mode : MatchMode} {pattern : Pattern} {text : Text}
    {captures : Captures} (matched : pattern.search? mode text = some captures) :
    captures.length = pattern.groups := by
  rw [search?_eq_leftmost?] at matched
  obtain ⟨start, -, here, -⟩ := exists_of_leftmost? matched
  exact length_of_matchHere? here

end Pattern

namespace Compiled

/-- What comes of the searches for the patterns of a template in a text. A pattern without names
beside it, or names without a pattern, are left out. -/
def searched (compiled : Compiled) (text : Text) : List Searched :=
  (compiled.patterns.zip compiled.names).map fun (pattern, names) =>
    ⟨names, pattern.search? compiled.mode text⟩

theorem collect_eq_recordAll (mode : MatchMode) (text : Text) (pairs : List (Pattern × List Text))
    (bindings : Bindings) :
    collect mode text .never pairs bindings =
      bindings.recordAll (pairs.map fun (pattern, names) => ⟨names, pattern.search? mode text⟩) := by
  induction pairs generalizing bindings with
  | nil => rfl
  | cons pair later ih =>
    obtain ⟨pattern, names⟩ := pair
    simp only [collect, Cutoff.never, Bool.false_eq_true, if_false, List.map_cons]
    cases pattern.search? mode text with
    | none => exact ih bindings
    | some captures =>
      simp only [Bindings.recordAll]
      cases bindings.record names captures with
      | error => rfl
      | ok recorded => exact ih recorded

theorem extract_eq_ofSearched (compiled : Compiled) (source : String) (text : Text) :
    compiled.extract .never source text =
      Extraction.ofSearched source (compiled.searched text) := by
  rw [extract, collect_eq_recordAll]
  rfl

theorem getElem?_searched (compiled : Compiled) (text : Text) (index : Nat) (one : Searched) :
    (compiled.searched text)[index]? = some one ↔
      ∃ pattern names, compiled.patterns[index]? = some pattern ∧
        compiled.names[index]? = some names ∧
        one = ⟨names, pattern.search? compiled.mode text⟩ := by
  simp only [searched, List.getElem?_map, Option.map_eq_some_iff, List.getElem?_zip_eq_some,
    Prod.exists]
  grind

end Compiled

/-- Extraction adds up captures. Patterns and names are considered in pairs, up to the end of the
shorter list. Extraction fails exactly when one of these patterns matches and has fewer captures than
there are names for them. Otherwise the names that are bound are those of the captures that took part,
in the order of first participation, and the value of a name is its last capture, cleaned; with no such
capture there is no result. Nothing of the searches counts but what they come to, and the same holds of
whatever else they come to. A template that is searched for as a whole therefore binds all of its
names, in template order, or none. -/
theorem captures_add_up (compiled : Compiled) (source : String) (text : Text) :
    (∀ (index : Nat) (one : Searched), (compiled.searched text)[index]? = some one ↔
      ∃ pattern names, compiled.patterns[index]? = some pattern ∧
        compiled.names[index]? = some names ∧
        one = ⟨names, pattern.search? compiled.mode text⟩) ∧
    (∀ pattern : Pattern, ∀ captures, pattern.search? compiled.mode text = some captures →
      captures.length = pattern.groups) ∧
    AddsUp source (compiled.searched text) (compiled.extract .never source text) ∧
    compiled.extract .never source text =
      Extraction.ofSearched source (compiled.searched text) ∧
    (∀ searched, AddsUp source searched (Extraction.ofSearched source searched)) ∧
    ∀ strict label content whole,
      (Compiled.compile .whole strict label content).outcome = .ok whole →
      ∃ result, whole.extract .never source text = .ok result ∧
        ∀ extraction, result = some extraction →
          extraction.values.names = whole.placeholders := by
  have extracts := compiled.extract_eq_ofSearched source text
  refine ⟨compiled.getElem?_searched text, fun _ _ => Pattern.length_of_search?, ?_, extracts,
    addsUp_ofSearched source, ?_⟩
  · rw [extracts]
    exact addsUp_ofSearched source (compiled.searched text)
  · intro strict label content whole compiles
    cases Compiled.eq_ofTemplate_of_compile compiles
    refine ⟨_, Compiled.extract_ofTemplate .whole content text source, fun extraction present => ?_⟩
    split at present
    · exact absurd present (by simp)
    · rename_i found
      cases present
      rw [Bindings.names_report_empty, Compiled.map_fst_found_whole (by simpa using found),
        Compiled.placeholders, Compiled.ofTemplate_whole, List.flatten_singleton]

end Stencil
