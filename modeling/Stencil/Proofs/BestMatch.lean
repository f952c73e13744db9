import Stencil.CommandLine.Run
import Stencil.Proofs.CommonBlocks
import Stencil.Proofs.Directory
import Stencil.Proofs.Rows
import Stencil.Proofs.ShownScores

/-! The ranking of a directory, and that its first template is the one that is picked.

Ranking sorts templates by their scores and keeps the listing order among equal ones; picking scans
the listing for the first of the highest scores. Where all scores are numbers above the floor, the
first of a stable descending order is the first of the highest.
-/

set_option autoImplicit false

namespace Stencil

namespace Ranked

/-! ## The stable descending order -/

/-- Where the score of a template stands in the order of numbers. -/
def place (ranked : Ranked) : Int :=
  ranked.score.position?.getD 0

/-- All scores are numbers. -/
def Numbered (ranked : List Ranked) : Prop :=
  ∀ one ∈ ranked, one.score.position? = some one.place

theorem lt_score_iff {first second : Ranked} (number : first.score.position? = some first.place)
    (number' : second.score.position? = some second.place) :
    first.score.lt second.score = true ↔ first.place < second.place := by
  rw [Binary64.lt_iff, number, number']
  simp

variable {ranked : List Ranked}

theorem descending_eq (numbered : Numbered ranked) :
    descending ranked =
      ranked.mergeSort fun first second => decide (second.place ≤ first.place) := by
  have compared : ∀ first ∈ ranked, ∀ second ∈ ranked,
      (!first.score.lt second.score) = decide (second.place ≤ first.place) := by
    intro first isFirst second isSecond
    have order := lt_score_iff (numbered first isFirst) (numbered second isSecond)
    rw [Bool.eq_iff_iff, Bool.not_eq_true', decide_eq_true_eq, ← Bool.not_eq_true, order]
    exact Int.not_lt
  have sorted := List.map_mergeSort
    (r := fun first second : Ranked => !first.score.lt second.score)
    (s := fun first second : Ranked => decide (second.place ≤ first.place)) (f := id) compared
  rwa [List.map_id, List.map_id] at sorted

theorem perm_descending (ranked : List Ranked) : (descending ranked).Perm ranked :=
  List.mergeSort_perm _ _

theorem place_trans (a b c : Ranked) (first : decide (b.place ≤ a.place) = true)
    (second : decide (c.place ≤ b.place) = true) : decide (c.place ≤ a.place) = true := by
  rw [decide_eq_true_eq] at *
  exact Int.le_trans second first

theorem place_total (a b : Ranked) :
    (decide (b.place ≤ a.place) || decide (a.place ≤ b.place)) = true := by
  rw [Bool.or_eq_true, decide_eq_true_eq, decide_eq_true_eq]
  exact Int.le_total _ _

theorem pairwise_descending (numbered : Numbered ranked) :
    (descending ranked).Pairwise fun first later => later.place ≤ first.place := by
  rw [descending_eq numbered]
  exact (List.pairwise_mergeSort place_trans place_total ranked).imp fun order =>
    of_decide_eq_true order

theorem filter_descending (numbered : Numbered ranked) (here : Int) :
    (descending ranked).filter (fun one => one.place = here) =
      ranked.filter fun one => one.place = here := by
  have level : (ranked.filter fun one => one.place = here).Pairwise fun first second =>
      decide (second.place ≤ first.place) = true := by
    apply List.pairwise_of_forall_mem_list
    intro first isFirst second isSecond
    rw [List.mem_filter, decide_eq_true_eq] at isFirst isSecond
    rw [isFirst.2, isSecond.2, decide_eq_true_eq]
  -- A stable sort keeps what is sorted already, and nothing else scores the same.
  have kept := List.sublist_mergeSort place_trans place_total level List.filter_sublist
  rw [← descending_eq numbered] at kept
  have inside := kept.filter fun one => one.place = here
  rw [List.filter_filter] at inside
  simp only [Bool.and_self] at inside
  have size := ((perm_descending ranked).filter fun one => one.place = here).length_eq
  exact (inside.eq_of_length size.symm).symm

theorem pairwise_not_lt_descending (numbered : Numbered ranked) :
    (descending ranked).Pairwise fun first later => first.score.lt later.score = false := by
  have listed := fun one => (perm_descending ranked).mem_iff (a := one)
  refine (pairwise_descending numbered).imp_of_mem fun isFirst isLater order => ?_
  have below := lt_score_iff (numbered _ ((listed _).mp isFirst)) (numbered _ ((listed _).mp isLater))
  rw [← Bool.not_eq_true, below]
  omega

theorem filter_position?_descending (numbered : Numbered ranked) (here : Int) :
    (descending ranked).filter (fun one => one.score.position? = some here) =
      ranked.filter fun one => one.score.position? = some here := by
  have stands : ∀ one ∈ ranked,
      decide (one.score.position? = some here) = decide (one.place = here) := by
    intro one member
    simp only [numbered one member, Option.some.injEq]
  rw [List.filter_congr stands, ← filter_descending numbered here]
  exact List.filter_congr fun one member => stands one ((perm_descending ranked).mem_iff.mp member)

theorem descending_map (change : Ranked → Ranked) (kept : ∀ one, (change one).score = one.score)
    (ranked : List Ranked) : descending (ranked.map change) = (descending ranked).map change := by
  unfold descending
  rw [List.map_mergeSort]
  intro first _ second _
  rw [kept, kept]

theorem head?_descending (numbered : Numbered ranked) {best : Ranked}
    (above : ∀ one ∈ ranked, floor.lt one.score = true) (picked : IsFirstBest floor ranked best) :
    (descending ranked).head? = some best := by
  have perm := perm_descending ranked
  have order := pairwise_descending numbered
  have level := filter_descending numbered best.place
  obtain ⟨before, after, split, -, lower, highest⟩ := picked
  have isBest : best ∈ ranked := by
    rw [split]
    exact List.mem_append_right _ List.mem_cons_self
  have earlierLower : ∀ earlier ∈ before, earlier.place < best.place := by
    intro earlier member
    have listed : earlier ∈ ranked := split ▸ List.mem_append_left _ member
    exact (lt_score_iff (numbered earlier listed) (numbered best isBest)).mp
      (lower earlier member (above earlier listed))
  have laterAtMost : ∀ later ∈ after, later.place ≤ best.place := by
    intro later member
    have listed : later ∈ ranked :=
      split ▸ List.mem_append_right _ (List.mem_cons_of_mem _ member)
    rw [← Int.not_lt, ← lt_score_iff (numbered best isBest) (numbered later listed)]
    exact highest later member
  cases sorted : descending ranked with
  | nil => exact absurd (perm.mem_iff.mpr isBest) (by simp [sorted])
  | cons top rest =>
    rw [sorted] at perm order level
    -- The top of the order scores what the best one scores, and both are the first to do so.
    have atLeast : best.place ≤ top.place := by
      rcases List.mem_cons.mp (perm.mem_iff.mpr isBest) with rfl | behind
      · exact Int.le_refl _
      · exact List.rel_of_pairwise_cons order behind
    have atMost : top.place ≤ best.place := by
      have listed := perm.mem_iff.mp (List.mem_cons_self (a := top))
      rw [split] at listed
      rcases List.mem_append.mp listed with member | member
      · exact Int.le_of_lt (earlierLower top member)
      · rcases List.mem_cons.mp member with rfl | member
        · exact Int.le_refl _
        · exact laterAtMost top member
    have nothingBefore : before.filter (fun one => one.place = best.place) = [] := by
      rw [List.filter_eq_nil_iff]
      intro earlier member
      have below := earlierLower earlier member
      rw [decide_eq_true_eq]
      omega
    have same : top.place = best.place := Int.le_antisymm atMost atLeast
    rw [List.filter_cons_of_pos (by simpa using same), split, List.filter_append, nothingBefore,
      List.nil_append, List.filter_cons_of_pos (by simp)] at level
    rw [List.head?_cons, (List.cons.inj level).1]

end Ranked

/-! ## Ranking and picking -/

/-- A template under another mode. -/
def Template.under (mode : MatchMode) (template : Template) : Template :=
  { template with mode }

namespace Repository

variable (repository : Repository) (mode : Option MatchMode) (directory : String)

theorem load_under (asked : MatchMode) (path : String) :
    repository.load (some asked) path =
      ⟨(repository.load mode path).events,
        (repository.load mode path).outcome.map (Template.under asked)⟩ := by
  unfold load FileSystem.read
  cases contents : repository.files.contents path <;> rfl

theorem loadAll_under (asked : MatchMode) (paths : List String) :
    repository.loadAll (some asked) paths =
      ⟨(repository.loadAll mode paths).events,
        (repository.loadAll mode paths).outcome.map (List.map (Template.under asked))⟩ := by
  induction paths with
  | nil => rfl
  | cons path rest ih =>
    unfold loadAll
    rw [load_under repository mode asked path, ih]
    simp only [bind, Traced.andThen]
    cases (repository.load mode path).outcome with
    | error error => rfl
    | ok template => cases (repository.loadAll mode rest).outcome <;> rfl

theorem list_under (asked : MatchMode) :
    repository.list (some asked) directory =
      ⟨(repository.list mode directory).events,
        (repository.list mode directory).outcome.map (List.map (Template.under asked))⟩ := by
  unfold list
  simp only [bind, Traced.andThen]
  cases (repository.files.entries directory).outcome with
  | error error => rfl
  | ok paths =>
    dsimp only
    rw [loadAll_under repository mode asked paths]
    cases (repository.loadAll mode paths).outcome with
    | error error => rfl
    | ok templates =>
      simp only [Except.map, List.length_map]
      rfl

variable {repository mode directory} (text : Text)

theorem outcome_rank_of_list_error {error : FileError}
    (failed : (repository.list mode directory).outcome = .error error) :
    (repository.rank mode directory text).outcome = .error error := by
  unfold rank scored
  simp only [bind, Traced.andThen, failed]

theorem outcome_best_of_list_error {error : FileError}
    (failed : (repository.list mode directory).outcome = .error error) :
    (repository.best mode directory text).outcome = .error error := by
  unfold best scored
  simp only [bind, Traced.andThen, failed]

theorem outcome_rank_of_list {templates : List Template}
    (listed : (repository.list mode directory).outcome = .ok templates) :
    (repository.rank mode directory text).outcome =
      .ok (Ranked.descending (templates.map (repository.rankedFor text))) := by
  unfold rank scored
  simp only [bind, Traced.andThen, listed, pure, Traced.ok]
  rfl

theorem outcome_best_of_list {templates : List Template}
    (listed : (repository.list mode directory).outcome = .ok templates) :
    (repository.best mode directory text).outcome =
      .ok ((Ranked.best (templates.map (repository.rankedFor text))).map Ranked.template) := by
  obtain ⟨reports, -, picked⟩ := best_of_list text
    (show repository.list mode directory = ⟨(repository.list mode directory).events, .ok templates⟩
      by rw [← listed])
  rw [picked]

end Repository

namespace Ranked

variable {repository : Repository} (text : Text)

theorem numbered_rankedFor (percentage : repository.scoring.IsPercentage)
    (templates : List Template) : Numbered (templates.map (repository.rankedFor text)) := by
  intro one member
  obtain ⟨template, -, rfl⟩ := List.mem_map.mp member
  obtain ⟨here, number, -⟩ := percentage text template.content
  have scores : (repository.rankedFor text template).score.position? = some here := number
  rw [scores, place, scores, Option.getD_some]

/-- The template that is picked comes first in the ranking. -/
theorem best_eq_head?_descending (percentage : repository.scoring.IsPercentage)
    (templates : List Template) :
    best (templates.map (repository.rankedFor text)) =
      (descending (templates.map (repository.rankedFor text))).head? := by
  have above : ∀ one ∈ templates.map (repository.rankedFor text), floor.lt one.score = true := by
    intro one member
    obtain ⟨template, -, rfl⟩ := List.mem_map.mp member
    exact floor_lt_of_isPercentage percentage text template.content
  cases picked : best (templates.map (repository.rankedFor text)) with
  | none =>
    have low := bestAbove_eq_none_iff.mp picked
    have empty : templates.map (repository.rankedFor text) = [] :=
      List.eq_nil_iff_forall_not_mem.mpr fun one member => low one member (above one member)
    rw [empty, descending, List.mergeSort_nil, List.head?_nil]
  | some one =>
    exact (head?_descending (numbered_rankedFor text percentage templates) above
      (isFirstBest_of_bestAbove picked)).symm

end Ranked

/-! ## Two commands -/

theorem Extractor.outcome_firstOf_singleton (extractor : Extractor) (text : Text) (clock : Clock)
    (template : Template) :
    (extractor.firstOf text clock [template]).outcome =
      (extractor.extractTemplate (clock 0) text template).outcome := by
  rw [outcome_firstOf_cons]
  rcases (extractor.extractTemplate (clock 0) text template).outcome with _ | _ | _ <;> rfl

namespace CommandLine

theorem outcome_answer_congr {first second : Traced Failure (Option Extraction)}
    (same : first.outcome = second.outcome) : (answer first).outcome = (answer second).outcome := by
  unfold answer
  rw [same]
  rcases second.outcome with (_ | _ | _) | (_ | _) <;> rfl

section
variable {settings : Settings} {disk : Disk} {input : String} (directory : Option String)
  (asked : Option MatchMode) {text : Text}

theorem execute_of_unloaded {error : FileError}
    (unloaded : (disk.load settings.templateEncoding input).outcome = .error error) :
    (execute settings disk (.rank input directory)).outcome = .error (.file error) ∧
      (execute settings disk (.parse input none directory false asked)).outcome =
        .error (.file error) := by
  unfold execute
  simp only [bind, Traced.andThen, Traced.mapError, unloaded, and_self]

theorem outcome_parse_of_loaded
    (loaded : (disk.load settings.templateEncoding input).outcome = .ok text) :
    (execute settings disk (.parse input none directory false asked)).outcome =
      (answer ((settings.extractor disk).extractDirectory (settings.extractor disk).clock text
        (directory.getD settings.templatesPath) settings.onlyBest asked)).outcome := by
  unfold execute
  simp only [bind, Traced.andThen, Traced.mapError, loaded, extraction, Bool.not_false,
    Bool.and_true]

theorem outcome_rank_of_loaded
    (loaded : (disk.load settings.templateEncoding input).outcome = .ok text) :
    (execute settings disk (.rank input directory)).outcome =
      match ((settings.extractor disk).repository.rank none
        (directory.getD settings.templatesPath) text).outcome with
      | .error error => .error (.file error)
      | .ok ranked => .ok ⟨found, ranked.flatMap rankLine⟩ := by
  unfold execute
  simp only [bind, Traced.andThen, Traced.mapError, loaded, pure, Traced.ok]
  cases ((settings.extractor disk).repository.rank none (directory.getD settings.templatesPath)
    text).outcome <;> rfl

theorem showsScore_of_mem_ranking {templates : List Template} {one : Ranked}
    (member : one ∈ Ranked.descending
      (templates.map ((settings.extractor disk).repository.rankedFor text))) :
    ShowsScore one.score (Binary64.padStart 6 one.score.twoPlaces) := by
  obtain ⟨template, -, rfl⟩ := List.mem_map.mp ((Ranked.perm_descending _).subset member)
  obtain ⟨units, score, percentage⟩ := Similarity.exists_units_score text template.content
  have same : ((settings.extractor disk).repository.rankedFor text template).score =
      .finite false units := score
  rw [same]
  exact Binary64.showsScore_padStart percentage

theorem parse_of_unlisted {error : FileError}
    (loaded : (disk.load settings.templateEncoding input).outcome = .ok text)
    (failed : ((settings.extractor disk).repository.list none
      (directory.getD settings.templatesPath)).outcome = .error error) :
    (execute settings disk (.parse input none directory false asked)).outcome =
      .error (.file error) := by
  have listed := (settings.extractor disk).repository.list_under none
    (directory.getD settings.templatesPath) (asked.getD (settings.extractor disk).mode)
  rw [failed] at listed
  rw [outcome_parse_of_loaded directory asked loaded,
    Extractor.extractDirectory_of_error _ _ _ (Extractor.candidates_of_list_error _ _ listed)]
  rfl

theorem parse_of_listed {templates : List Template} (onlyBest : settings.onlyBest = true)
    (loaded : (disk.load settings.templateEncoding input).outcome = .ok text)
    (listed : ((settings.extractor disk).repository.list none
      (directory.getD settings.templatesPath)).outcome = .ok templates) :
    let extractor := settings.extractor disk
    let ranked := Ranked.descending (templates.map (extractor.repository.rankedFor text))
    let tried := ranked.head?.toList.map fun first =>
      first.template.under (asked.getD settings.mode)
    (extractor.candidates text (directory.getD settings.templatesPath) true
        (asked.getD settings.mode)).outcome = .ok tried ∧
      (execute settings disk (.parse input none directory false asked)).outcome =
        (answer (extractor.firstOf text extractor.clock tried)).outcome := by
  intro extractor ranked tried
  let mode := asked.getD settings.mode
  let change (one : Ranked) : Ranked := ⟨one.template.under mode, one.score⟩
  have listedUnder :=
    extractor.repository.list_under none (directory.getD settings.templatesPath) mode
  rw [listed] at listedUnder
  have rescored : (templates.map (Template.under mode)).map (extractor.repository.rankedFor text) =
      (templates.map (extractor.repository.rankedFor text)).map change := by
    rw [List.map_map, List.map_map]
    rfl
  have chosen : extractor.tried text true (templates.map (Template.under mode)) = tried := by
    unfold Extractor.tried
    rw [if_pos rfl, Ranked.best_eq_head?_descending text Similarity.isPercentage_score, rescored,
      Ranked.descending_map change (fun _ => rfl), List.head?_map, Option.map_map]
    exact Option.toList_map
  obtain ⟨reports, -, candidates⟩ := Extractor.candidates_of_list text true listedUnder
  rw [chosen] at candidates
  obtain ⟨trying, -, answered⟩ :=
    extractor.extractDirectory_of_candidates text extractor.clock candidates
  refine ⟨by rw [candidates], ?_⟩
  rw [outcome_parse_of_loaded directory asked loaded, onlyBest]
  exact outcome_answer_congr (by rw [answered])

end

end CommandLine

/-- Ranking and picking agree, for every scoring by percentages. A directory that cannot be listed
and a file that cannot be read fail both in the same way. Otherwise the ranking holds each template
once with its score, best first and equal ones in listing order; the template that is picked is that
of its first entry, and none is picked only where there is none. A printed ranking has a line for
each entry, with its score, two spaces and its source; so the first line names the template that is
tried for the same input when only the best one is. -/
theorem ranking_agrees_with_best (repository : Repository) (mode : Option MatchMode)
    (directory : String) (text : Text) (percentage : repository.scoring.IsPercentage) :
    let listing := (repository.files.entries directory).outcome
    let listed := (repository.list mode directory).outcome
    let ranking := (repository.rank mode directory text).outcome
    let picking := (repository.best mode directory text).outcome
    (∀ error, listing = .error error → listed = .error error) ∧
    (∀ before path after error, listing = .ok (before ++ path :: after) →
      (∀ earlier ∈ before, ∃ content, repository.files.contents earlier = .ok content) →
      repository.files.contents path = .error error → listed = .error error) ∧
    (∀ error, listed = .error error → ranking = .error error ∧ picking = .error error) ∧
    (∀ templates, listed = .ok templates →
      let scored := templates.map fun template =>
        (⟨template, repository.scoring text template.content⟩ : Ranked)
      ∃ ranked,
        ranking = .ok ranked ∧
        ranked.Perm scored ∧
        ranked.Pairwise (fun first later => first.score.lt later.score = false) ∧
        (∀ place, ranked.filter (fun one => one.score.position? = some place) =
          scored.filter fun one => one.score.position? = some place) ∧
        picking = .ok (ranked.head?.map Ranked.template) ∧
        (picking = .ok none ↔ templates = [])) ∧
    ∀ settings disk input searched asked, settings.onlyBest = true →
      let extractor := settings.extractor disk
      let own := asked.getD settings.mode
      let ranks := (CommandLine.execute settings disk (.rank input searched)).outcome
      let parses := (CommandLine.execute settings disk
        (.parse input none searched false asked)).outcome
      (∀ failure, ranks = .error failure → parses = .error failure) ∧
      (∀ content templates, (disk.load settings.templateEncoding input).outcome = .ok content →
        (extractor.repository.list none (searched.getD settings.templatesPath)).outcome =
          .ok templates → ∃ printed, ranks = .ok printed) ∧
      ∀ printed, ranks = .ok printed → ∃ content ranked, ∃ shown : Ranked → String,
        (disk.load settings.templateEncoding input).outcome = .ok content ∧
        (extractor.repository.rank none (searched.getD settings.templatesPath) content).outcome =
          .ok ranked ∧
        (∀ one ∈ ranked, ShowsScore one.score (shown one)) ∧
        printed = ⟨0, ranked.flatMap fun one =>
          (shown one ++ "  " ++ one.template.source ++ "\n").toList⟩ ∧
        let tried := (extractor.candidates content (searched.getD settings.templatesPath) true
          own).outcome
        (ranked = [] ∧ tried = .ok [] ∧ parses = .ok ⟨1, []⟩ ∨
        ∃ first others,
          let template : Template := ⟨first.template.content, first.template.source, own⟩
          ranked = first :: others ∧
          tried = .ok [template] ∧
          parses = (CommandLine.answer
            (extractor.extractTemplate (extractor.clock 0) content template)).outcome) := by
  intro listing listed ranking picking
  refine ⟨?_, ?_, ?_, ?_, ?_⟩
  · intro error unlisted
    rw [show listed = _ from congrArg Traced.outcome (Repository.list_of_unlisted unlisted)]
  · intro before path after error entries readable unreadable
    rw [show listed = _ from congrArg Traced.outcome
      (Repository.list_of_unreadable entries readable unreadable)]
  · intro error failed
    exact ⟨Repository.outcome_rank_of_list_error text failed,
      Repository.outcome_best_of_list_error text failed⟩
  · intro templates loaded scored
    have numbered := Ranked.numbered_rankedFor text percentage templates
    have picked := Repository.outcome_best_of_list text loaded
    rw [Ranked.best_eq_head?_descending text percentage] at picked
    refine ⟨Ranked.descending scored, Repository.outcome_rank_of_list text loaded,
      Ranked.perm_descending scored, ?_, ?_, picked, ?_⟩
    · exact Ranked.pairwise_not_lt_descending numbered
    · exact Ranked.filter_position?_descending numbered
    · rw [show picking = _ from picked, Except.ok.injEq, Option.map_eq_none_iff,
        List.head?_eq_none_iff, ← List.length_eq_zero_iff, (Ranked.perm_descending _).length_eq,
        List.length_eq_zero_iff, List.map_eq_nil_iff]
  · intro settings disk input searched asked onlyBest extractor own ranks parses
    cases loaded : (disk.load settings.templateEncoding input).outcome with
    | error error =>
      obtain ⟨ranksFails, parsesFails⟩ := CommandLine.execute_of_unloaded searched asked loaded
      refine ⟨fun failure failed => ?_, nofun, fun printed success => ?_⟩
      · exact parsesFails.trans (ranksFails.symm.trans failed)
      · exact absurd (success.symm.trans ranksFails) (by simp)
    | ok content =>
      have ranked := CommandLine.outcome_rank_of_loaded searched loaded
      cases listed : (extractor.repository.list none
          (searched.getD settings.templatesPath)).outcome with
      | error error =>
        rw [Repository.outcome_rank_of_list_error content listed] at ranked
        refine ⟨fun failure failed => ?_, fun _ _ _ found => ?_, fun printed success => ?_⟩
        · exact (CommandLine.parse_of_unlisted searched asked loaded listed).trans
            (ranked.symm.trans failed)
        · cases found
        · exact absurd (success.symm.trans ranked) (by simp)
      | ok templates =>
        rw [Repository.outcome_rank_of_list content listed] at ranked
        refine ⟨fun failure failed => absurd (failed.symm.trans ranked) (by simp),
          fun _ _ _ _ => ⟨_, ranked⟩, ?_⟩
        intro printed success
        obtain ⟨tried, parsed⟩ := CommandLine.parse_of_listed searched asked onlyBest loaded listed
        refine ⟨content, _, fun one => Binary64.padStart 6 one.score.twoPlaces, rfl,
          Repository.outcome_rank_of_list content listed,
          fun one => CommandLine.showsScore_of_mem_ranking,
          Except.ok.inj (success.symm.trans ranked), ?_⟩
        cases sorted : Ranked.descending
            (templates.map (extractor.repository.rankedFor content)) with
        | nil =>
          rw [sorted] at tried parsed
          exact .inl ⟨rfl, tried, parsed⟩
        | cons first others =>
          rw [sorted] at tried parsed
          refine .inr ⟨first, others, rfl, tried, ?_⟩
          rw [show parses = _ from parsed]
          exact CommandLine.outcome_answer_congr (extractor.outcome_firstOf_singleton _ _ _)

/-- Of two templates that are both the text itself the one that is listed first is on top, though a
lesser one is listed before it. -/
theorem ranking_agrees_with_best_tied :
    let memory : MemoryFiles :=
      ⟨[("t/a", "xy".toList), ("t/b", "ab".toList), ("t/c", "ab".toList)], []⟩
    let repository : Repository := ⟨memory.fileSystem, Similarity.score, .whole⟩
    ∃ first others,
      (repository.rank none "t" "ab".toList).outcome = .ok (first :: others) ∧
      first.template = ⟨"ab".toList, "t/b", .whole⟩ ∧
      (others.map Ranked.source).Perm ["t/a", "t/c"] := by
  intro memory repository
  have listed : (repository.list none "t").outcome = .ok [⟨"xy".toList, "t/a", .whole⟩,
      ⟨"ab".toList, "t/b", .whole⟩, ⟨"ab".toList, "t/c", .whole⟩] := by decide +kernel
  have picked : (repository.best none "t" "ab".toList).outcome =
      .ok (some ⟨"ab".toList, "t/b", .whole⟩) := by decide +kernel
  obtain ⟨-, -, -, loaded, -⟩ := ranking_agrees_with_best repository none "t" "ab".toList
    Similarity.isPercentage_score
  obtain ⟨ranked, ranking, perm, -, -, top, -⟩ := loaded _ listed
  rw [picked, Except.ok.injEq] at top
  obtain ⟨first, isFirst, template⟩ := Option.map_eq_some_iff.mp top.symm
  obtain ⟨others, rfl⟩ := List.head?_eq_some_iff.mp isFirst
  have sources := perm.map Ranked.source
  rw [List.map_cons, Ranked.source, template] at sources
  have swapped : ["t/a", "t/b", "t/c"].Perm ["t/b", "t/a", "t/c"] := by decide
  exact ⟨first, others, ranking, template, (List.perm_cons _).mp (sources.trans swapped)⟩

end Stencil
