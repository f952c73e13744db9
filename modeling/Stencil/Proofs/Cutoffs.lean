import Stencil.Proofs.Captures
import Stencil.Proofs.Directory
import Stencil.Proofs.TemplateLines

/-! Searches that are cut off.

A search that is given up leaves nothing behind: extraction goes on with the next pattern, as if the
pattern and its names had not been there. What remains of a name is what the other patterns report
for it. Over a directory, each template is tried with the searches for it that came to an end, and the
first template that yields values is the answer.
-/

set_option autoImplicit false

namespace Stencil

namespace Cutoff

/-- How a cutoff falls on what stands behind the first pattern. -/
def later (cutoff : Cutoff) : Cutoff :=
  fun index => cutoff (index + 1)

/-- The members of a list at the places that are not cut off. -/
def kept {α : Type} (cutoff : Cutoff) (members : List α) : List α :=
  (members.zipIdx.filter fun member => !cutoff member.2).map Prod.fst

section
variable {α β : Type} (cutoff : Cutoff)

theorem kept_cons (first : α) (rest : List α) :
    cutoff.kept (first :: rest) =
      if cutoff 0 then cutoff.later.kept rest else first :: cutoff.later.kept rest := by
  -- The rest is numbered from one on; the shifted cutoff sees it numbered from zero.
  have shifted : ((rest.zipIdx 1).filter fun member => !cutoff member.2).map Prod.fst =
      cutoff.later.kept rest := by
    rw [List.zipIdx_succ, List.filter_map, List.map_map]
    rfl
  rw [kept, List.zipIdx_cons, Nat.zero_add, List.filter_cons]
  cases cutoff 0 with
  | true => exact shifted
  | false => exact congrArg (first :: ·) shifted

theorem kept_map (f : α → β) (members : List α) :
    cutoff.kept (members.map f) = (cutoff.kept members).map f := by
  induction members generalizing cutoff with
  | nil => rfl
  | cons first rest ih =>
    rw [List.map_cons, kept_cons, kept_cons, ih]
    split <;> rfl

theorem kept_zip (firsts : List α) (seconds : List β) :
    cutoff.kept (firsts.zip seconds) = (cutoff.kept firsts).zip (cutoff.kept seconds) := by
  induction firsts generalizing cutoff seconds with
  | nil => rfl
  | cons first firsts ih =>
    cases seconds with
    | nil => exact List.zip_nil_right.symm
    | cons second seconds =>
      rw [List.zip_cons_cons, kept_cons, kept_cons, kept_cons, ih]
      split <;> rfl

theorem kept_subset (members : List α) : cutoff.kept members ⊆ members := by
  intro member isKept
  obtain ⟨⟨_, index⟩, isPlaced, rfl⟩ := List.mem_map.mp isKept
  exact List.fst_mem_of_mem_zipIdx (List.mem_filter.mp isPlaced).1

theorem kept_always (members : List α) : always.kept members = [] := by
  simp [kept, always]

end

end Cutoff

namespace Compiled

/-- A template without the patterns that are cut off, and without their names. -/
def without (compiled : Compiled) (cutoff : Cutoff) : Compiled :=
  { compiled with
    patterns := cutoff.kept compiled.patterns
    names := cutoff.kept compiled.names }

theorem collect_kept (mode : MatchMode) (text : Text) (cutoff : Cutoff)
    (pairs : List (Pattern × List Text)) (bindings : Bindings) :
    collect mode text cutoff pairs bindings =
      collect mode text .never (cutoff.kept pairs) bindings := by
  induction pairs generalizing cutoff bindings with
  | nil => rfl
  | cons pair rest ih =>
    obtain ⟨pattern, names⟩ := pair
    rw [collect, Cutoff.kept_cons]
    cases cutoff 0 with
    | true => exact ih cutoff.later bindings
    | false =>
      simp only [Bool.false_eq_true, if_false, collect, Cutoff.never]
      cases pattern.search? mode text with
      | none => exact ih cutoff.later bindings
      | some captures =>
        simp only
        cases bindings.record names captures with
        | error => rfl
        | ok recorded => exact ih cutoff.later recorded

/-- Cutting searches off and leaving their patterns out comes to the same. -/
theorem extract_without (compiled : Compiled) (cutoff : Cutoff) (source : String) (text : Text) :
    compiled.extract cutoff source text = (compiled.without cutoff).extract .never source text := by
  rw [extract, collect_kept, Cutoff.kept_zip]
  rfl

theorem searched_without (compiled : Compiled) (cutoff : Cutoff) (text : Text) :
    (compiled.without cutoff).searched text = cutoff.kept (compiled.searched text) := by
  rw [searched, searched, Cutoff.kept_map, Cutoff.kept_zip]
  rfl

theorem not_lacksGroup_of_compile {mode : MatchMode} {strict : Bool} {label : String}
    {content : Text} {compiled : Compiled}
    (compiles : (compile mode strict label content).outcome = .ok compiled) (text : Text) :
    ∀ one ∈ compiled.searched text, ¬ one.LacksGroup := by
  cases eq_ofTemplate_of_compile compiles
  intro one member
  simp only [searched, ofTemplate, List.zip_map', List.map_map, List.mem_map,
    Function.comp_apply] at member
  obtain ⟨passage, -, rfl⟩ := member
  rintro ⟨captures, matched, short⟩
  obtain ⟨values, rfl, long⟩ := Passage.captures_of_search? matched
  rw [List.length_map, long] at short
  exact absurd short (Nat.lt_irrefl _)

end Compiled

/-! ## What remains of a name -/

theorem lastUnder_eq_none_iff {pairs : List (Text × Text)} {name : Text} :
    lastUnder pairs name = none ↔ name ∉ pairs.map Prod.fst := by
  rw [lastUnder, List.lookup_eq_none_iff]
  simp only [List.mem_reverse, bne_iff_ne, ne_eq, List.mem_map, not_exists, not_and]
  exact forall₂_congr fun pair _ => not_congr eq_comm

theorem lastUnder_kept_eq_none {searched : List Searched} {cutoff : Cutoff} {name : Text}
    (unreported : ∀ (index : Nat) (one : Searched), searched[index]? = some one →
      cutoff index = false → name ∉ one.reports.map Prod.fst) :
    lastUnder ((cutoff.kept searched).flatMap Searched.reports) name = none := by
  induction searched generalizing cutoff with
  | nil => rfl
  | cons first rest ih =>
    have behind : lastUnder ((cutoff.later.kept rest).flatMap Searched.reports) name = none :=
      ih fun index one => unreported (index + 1) one
    rw [Cutoff.kept_cons]
    cases cut : cutoff 0 with
    | true => exact behind
    | false =>
      rw [if_neg (by simp), List.flatMap_cons, lastUnder_append, behind,
        lastUnder_eq_none_iff.mpr (unreported 0 first rfl cut)]
      rfl

/-- A name is left with what the last search that came to an end and reports it has for it. -/
theorem lastUnder_kept_of_last {searched : List Searched} {cutoff : Cutoff} {name : Text}
    {index : Nat} {one : Searched} (placed : searched[index]? = some one)
    (ended : cutoff index = false) (reported : name ∈ one.reports.map Prod.fst)
    (last : ∀ (later : Nat) (other : Searched), index < later → searched[later]? = some other →
      cutoff later = false → name ∉ other.reports.map Prod.fst) :
    lastUnder ((cutoff.kept searched).flatMap Searched.reports) name =
      lastUnder one.reports name := by
  induction searched generalizing cutoff index with
  | nil => simp at placed
  | cons first rest ih =>
    cases index with
    | zero =>
      cases placed
      have behind : lastUnder ((cutoff.later.kept rest).flatMap Searched.reports) name = none :=
        lastUnder_kept_eq_none fun later other => last (later + 1) other (Nat.succ_pos later)
      rw [Cutoff.kept_cons, ended, if_neg (by simp), List.flatMap_cons, lastUnder_append, behind]
      rfl
    | succ index =>
      have behind : lastUnder ((cutoff.later.kept rest).flatMap Searched.reports) name =
          lastUnder one.reports name :=
        ih placed ended fun later other after =>
          last (later + 1) other (Nat.succ_lt_succ after)
      rw [Cutoff.kept_cons]
      split
      · exact behind
      · obtain ⟨value, known⟩ :=
          Option.ne_none_iff_exists'.mp fun missing => lastUnder_eq_none_iff.mp missing reported
        rw [List.flatMap_cons, lastUnder_append, behind, known]
        rfl

theorem Compiled.exists_extract {compiled : Compiled} {text : Text} (cutoff : Cutoff)
    (source : String) (enough : ∀ one ∈ compiled.searched text, ¬ one.LacksGroup) :
    ∃ result, compiled.extract cutoff source text = .ok result ∧
      (result = none ↔
        (cutoff.kept (compiled.searched text)).flatMap Searched.reports = []) ∧
      ∀ name, (Extraction.bound result).get? name =
        (lastUnder ((cutoff.kept (compiled.searched text)).flatMap Searched.reports) name).map
          Text.clean := by
  rw [extract_without, extract_eq_ofSearched, searched_without,
    Extraction.ofSearched_eq_ok fun one member => enough one (cutoff.kept_subset _ member)]
  refine ⟨_, rfl, by simp, fun name => ?_⟩
  cases (cutoff.kept (compiled.searched text)).flatMap Searched.reports with
  | nil => rfl
  | cons first rest => exact (Bindings.get?_report .empty _ name).trans Option.or_none

/-! ## Templates one after the other -/

/-- What a template yields with the patterns left out whose searches are cut off. -/
def Template.Yields (strict : Bool) (cutoff : Cutoff) (text : Text) (template : Template)
    (result : Option Extraction) : Prop :=
  ∃ compiled,
    (Compiled.compile template.mode strict template.source template.content).outcome =
      .ok compiled ∧
    (compiled.without cutoff).extract .never template.source (template.mode.normalize text) =
      .ok result

namespace Extractor

variable (extractor : Extractor) (text : Text)

theorem outcome_of_yields {cutoff : Cutoff} {template : Template} {result : Option Extraction}
    (yields : template.Yields extractor.strict cutoff text result) :
    (extractor.extractTemplate cutoff text template).outcome = .ok result := by
  obtain ⟨compiled, compiles, extracts⟩ := yields
  rw [extractTemplate, outcome_extractText]
  simp only [Option.getD_some, compiles, compiled.extract_without cutoff, extracts]

theorem outcome_of_uncompiled {cutoff : Cutoff} {template : Template} {failure : Failure}
    (failed : (Compiled.compile template.mode extractor.strict template.source
      template.content).outcome = .error failure) :
    (extractor.extractTemplate cutoff text template).outcome = .error failure := by
  rw [extractTemplate, outcome_extractText]
  simp only [Option.getD_some, failed]

theorem outcome_firstOf_append (clock : Clock) {before after : List Template}
    (nothing : ∀ (position : Nat) (earlier : Template), before[position]? = some earlier →
      earlier.Yields extractor.strict (clock position) text none) :
    (extractor.firstOf text clock (before ++ after)).outcome =
      (extractor.firstOf text (fun position => clock (before.length + position)) after).outcome := by
  induction before generalizing clock with
  | nil => simp only [List.nil_append, List.length_nil, Nat.zero_add]
  | cons earlier before ih =>
    have here := extractor.outcome_of_yields text (nothing 0 earlier rfl)
    rw [List.cons_append, outcome_firstOf_cons, here]
    simp only
    rw [ih (fun position => clock (position + 1)) fun position => nothing (position + 1)]
    simp only [List.length_cons, Nat.add_right_comm]

theorem outcome_extractDirectory_all {directory : String} {paths : List String}
    {contents : String → Text} (clock : Clock) (mode : Option MatchMode)
    (listed : (extractor.repository.files.entries directory).outcome = .ok paths)
    (readable : ∀ path ∈ paths,
      extractor.repository.files.contents path = .ok (contents path)) :
    (extractor.extractDirectory clock text directory false mode).outcome =
      (extractor.firstOf text clock (paths.map fun path =>
        ⟨contents path, path, mode.getD extractor.mode⟩)).outcome := by
  obtain ⟨loading, -, loaded⟩ :=
    Repository.list_of_readable (some (mode.getD extractor.mode)) listed readable
  obtain ⟨ranking, -, chosen⟩ := candidates_of_list text false loaded
  obtain ⟨trying, -, answered⟩ := extractor.extractDirectory_of_candidates text clock chosen
  rw [answered]
  rfl

end Extractor

/-- Searches that are cut off are left out. Whichever searches for a compiled template do not come to
an end, extraction succeeds, and it gives what it gives without a limit when their patterns and names
are taken out of the template. A name is left with the value of the last pattern that reports it among
those whose search came to an end, and is unbound when there is none; a template that is searched for
as a whole gives nothing when it is cut off. So with all templates of a directory, the answer is that
of the first in listing order that yields values from the searches that came to an end. A template that
does not compile ends the scan where it is reached. -/
theorem cutoffs_leave_searches_out (mode : MatchMode) (strict : Bool) (label : String)
    (content : Text) (compiled : Compiled) (cutoff : Cutoff) (source : String) (text : Text)
    (compiles : (Compiled.compile mode strict label content).outcome = .ok compiled) :
    (∃ result, compiled.extract cutoff source text = .ok result ∧
      (compiled.without cutoff).extract .never source text = .ok result ∧
      (∀ (index : Nat) (one : Searched) (name : Text),
        (compiled.searched text)[index]? = some one → cutoff index = false →
        name ∈ one.reports.map Prod.fst →
        (∀ (later : Nat) (other : Searched), index < later →
          (compiled.searched text)[later]? = some other → cutoff later = false →
          name ∉ other.reports.map Prod.fst) →
        (Extraction.bound result).get? name = (lastUnder one.reports name).map Text.clean) ∧
      (∀ name : Text,
        (∀ (index : Nat) (one : Searched), (compiled.searched text)[index]? = some one →
          cutoff index = false → name ∉ one.reports.map Prod.fst) →
        (Extraction.bound result).get? name = none) ∧
      (mode = .whole → cutoff 0 = true → result = none)) ∧
    ∀ (extractor : Extractor) (clock : Clock) (directory : String) (asked : Option MatchMode)
      (paths : List String) (contents : String → Text),
      (extractor.repository.files.entries directory).outcome = .ok paths →
      (∀ path ∈ paths, extractor.repository.files.contents path = .ok (contents path)) →
      let templates := paths.map fun path =>
        (⟨contents path, path, asked.getD extractor.mode⟩ : Template)
      let answer := (extractor.extractDirectory clock text directory false asked).outcome
      (∀ before template after, templates = before ++ template :: after →
        (∀ (position : Nat) (earlier : Template), before[position]? = some earlier →
          earlier.Yields extractor.strict (clock position) text none) →
        (∀ extraction,
          template.Yields extractor.strict (clock before.length) text (some extraction) →
          answer = .ok (some extraction)) ∧
        ∀ failure,
          (Compiled.compile template.mode extractor.strict template.source
            template.content).outcome = .error failure →
          answer = .error failure) ∧
      ((∀ (position : Nat) (template : Template), templates[position]? = some template →
        template.Yields extractor.strict (clock position) text none) →
        answer = .ok none) := by
  constructor
  · obtain ⟨result, extracts, nothing, bound⟩ := Compiled.exists_extract cutoff source
      (Compiled.not_lacksGroup_of_compile compiles text)
    refine ⟨result, extracts, (compiled.extract_without cutoff source text).symm.trans extracts,
      fun index one name placed ended reported last => ?_, fun name unreported => ?_,
      fun whole cut => ?_⟩
    · rw [bound, lastUnder_kept_of_last placed ended reported last]
    · rw [bound, lastUnder_kept_eq_none unreported]
      rfl
    · subst whole
      cases Compiled.eq_ofTemplate_of_compile compiles
      rw [nothing, Compiled.ofTemplate_whole]
      exact congrArg (List.flatMap Searched.reports)
        ((Cutoff.kept_cons cutoff _ []).trans (if_pos cut))
  · intro extractor clock directory asked paths contents listed readable templates answer
    have tried : answer = (extractor.firstOf text clock templates).outcome :=
      extractor.outcome_extractDirectory_all text clock asked listed readable
    refine ⟨fun before template after split nothing => ?_, fun nothing => ?_⟩
    · rw [split, extractor.outcome_firstOf_append text clock nothing,
        Extractor.outcome_firstOf_cons] at tried
      refine ⟨fun extraction yields => ?_, fun failure failed => ?_⟩
      · rw [tried, Nat.add_zero, extractor.outcome_of_yields text yields]
      · rw [tried, Nat.add_zero, extractor.outcome_of_uncompiled text failed]
    · rw [← List.append_nil templates, extractor.outcome_firstOf_append text clock nothing] at tried
      exact tried

/-- The second of two lines with the same name is cut off, and the name keeps the value of the first.
In a directory, a template that is cut off altogether leaves the answer to the next one. -/
theorem cutoffs_leave_searches_out_falling_back :
    let content := "A: {%X%}\nB: {%X%}".toList
    let text := "A: 1\nB: 2".toList
    let second : Cutoff := fun index => index == 1
    let files : FileSystem :=
      { entries := fun _ => .ok ["t/a", "t/b"], contents := fun _ => .ok content }
    let repository : Repository := { files, scoring := fun _ _ => .zero, mode := .line }
    let extractor : Extractor := { repository, mode := .line, strict := true, timeLimit := none }
    let clock : Clock := fun position => if position = 0 then .always else second
    ∃ compiled result,
      (Compiled.compile .line true "form" content).outcome = .ok compiled ∧
      compiled.extract second "form" text = .ok result ∧
      (Extraction.bound result).get? "X".toList = some "1".toList ∧
      ∃ extraction,
        (extractor.extractDirectory clock text "t" false none).outcome = .ok (some extraction) := by
  intro content text second files repository extractor clock
  have clear : MatchMode.line.malformed content = [] := by decide +kernel
  have compiles := Compiled.outcome_compile_of_malformed_nil clear true
  have levelled : MatchMode.line.normalize text = text := by decide +kernel
  have searched : (Compiled.ofTemplate .line content).searched text =
      [⟨["X".toList], some [some "1".toList]⟩, ⟨["X".toList], some [some "2".toList]⟩] := by
    decide +kernel
  have enough := Compiled.not_lacksGroup_of_compile (compiles "form") text
  obtain ⟨⟨result, extracts, -, falls, -⟩, scan⟩ := cutoffs_leave_searches_out .line true "form"
    content _ second "form" text (compiles "form")
  rw [searched] at falls
  refine ⟨_, result, compiles "form", extracts, ?_, ?_⟩
  · refine falls 0 ⟨["X".toList], some [some "1".toList]⟩ _ rfl rfl (by decide) ?_
    intro later other after placed ended
    match later with
    | 1 => exact absurd ended (by decide)
    | _ + 2 => simp at placed
  · obtain ⟨first, -⟩ := scan extractor clock "t" none ["t/a", "t/b"] (fun _ => content) rfl
      fun _ _ => rfl
    have yields (label : String) (cutoff : Cutoff) : ∃ own,
        (⟨content, label, .line⟩ : Template).Yields true cutoff text own ∧
        (own = none ↔ (cutoff.kept ((Compiled.ofTemplate .line content).searched text)).flatMap
          Searched.reports = []) := by
      obtain ⟨own, extracts, nothing, -⟩ := Compiled.exists_extract cutoff label enough
      rw [Compiled.extract_without] at extracts
      exact ⟨own, ⟨_, compiles label, levelled ▸ extracts⟩, nothing⟩
    obtain ⟨own, cutOff, blank⟩ := yields "t/a" .always
    rw [Cutoff.kept_always] at blank
    cases blank.mpr rfl
    -- The second template still has its first line.
    obtain ⟨own, ended, present⟩ := yields "t/b" second
    obtain ⟨extraction, rfl⟩ := Option.ne_none_iff_exists'.mp fun missing =>
      absurd (present.mp missing) (by rw [searched]; decide)
    refine ⟨extraction, (first [⟨content, "t/a", .line⟩] _ [] rfl ?_).1 extraction ended⟩
    intro position earlier placed
    match position with
    | 0 =>
      cases placed
      exact cutOff
    | _ + 1 => simp at placed

end Stencil
