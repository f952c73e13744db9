import Stencil.Extractor
import Stencil.Proofs.Ranking

/-! What a directory's templates are, and what is asked of the files on the way.

The directory is listed, then its entries are read one after the other. The first failure ends
everything, so that no later file is asked for; messages are left only when all files were read.
-/

set_option autoImplicit false

namespace Stencil

namespace Traced

variable {Error Value Result : Type}

theorem bind_of_ok {first : Traced Error Value} {events : List Event} {value : Value}
    (done : first = ⟨events, .ok value⟩) (next : Value → Traced Error Result) :
    (first >>= next) = ⟨events ++ (next value).events, (next value).outcome⟩ := by
  subst done
  rfl

theorem bind_of_error {first : Traced Error Value} {events : List Event} {error : Error}
    (failed : first = ⟨events, .error error⟩) (next : Value → Traced Error Result) :
    (first >>= next) = ⟨events, .error error⟩ := by
  subst failed
  rfl

end Traced

/-- Events that leave messages and ask for no file. -/
def MessagesOnly (events : List Event) : Prop :=
  ∀ event ∈ events, ∃ level text, event = .message level text

theorem messagesOnly_nil : MessagesOnly [] :=
  fun _ member => absurd member List.not_mem_nil

theorem messagesOnly_append {first later : List Event} :
    MessagesOnly (first ++ later) ↔ MessagesOnly first ∧ MessagesOnly later :=
  List.forall_mem_append

theorem messagesOnly_map {α : Type} {note : α → Event} {members : List α}
    (notes : ∀ a, ∃ level text, note a = .message level text) : MessagesOnly (members.map note) := by
  intro event member
  obtain ⟨a, -, rfl⟩ := List.mem_map.mp member
  exact notes a

theorem messagesOnly_singleton (level : Level) (text : String) :
    MessagesOnly [.message level text] :=
  fun _ member => ⟨level, text, List.mem_singleton.mp member⟩

theorem messagesOnly_bind {Error Value Result : Type} {first : Traced Error Value}
    {next : Value → Traced Error Result} (before : MessagesOnly first.events)
    (behind : ∀ value, MessagesOnly (next value).events) :
    MessagesOnly (first >>= next).events := by
  simp only [bind, Traced.andThen]
  cases first.outcome with
  | error error => exact before
  | ok value => exact messagesOnly_append.mpr ⟨before, behind value⟩

namespace Repository

variable {repository : Repository} {mode : Option MatchMode} {directory : String}
  {content : String → Text}

/-- The template that is made of a file. -/
def templateAt (mode : MatchMode) (content : String → Text) (path : String) : Template :=
  ⟨content path, path, mode⟩

/-- A template with the score that it gets for a text. -/
def rankedFor (repository : Repository) (text : Text) (template : Template) : Ranked :=
  ⟨template, repository.scoring text template.content⟩

theorem load_of_readable {path : String} {text : Text}
    (readable : repository.files.contents path = .ok text) :
    repository.load mode path = ⟨[.read path], .ok ⟨text, path, mode.getD repository.mode⟩⟩ := by
  unfold load FileSystem.read
  rw [readable]
  rfl

theorem load_of_unreadable {path : String} {error : FileError}
    (unreadable : repository.files.contents path = .error error) :
    repository.load mode path = ⟨[.read path], .error error⟩ := by
  unfold load FileSystem.read
  rw [unreadable]
  rfl

theorem loadAll_of_readable {paths : List String}
    (readable : ∀ path ∈ paths, repository.files.contents path = .ok (content path)) :
    repository.loadAll mode paths =
      ⟨paths.map .read, .ok (paths.map (templateAt (mode.getD repository.mode) content))⟩ := by
  induction paths with
  | nil => rfl
  | cons path rest ih =>
    obtain ⟨here, later⟩ := List.forall_mem_cons.mp readable
    unfold loadAll
    rw [Traced.bind_of_ok (load_of_readable here), Traced.bind_of_ok (ih later)]
    simp only [pure, Traced.ok, List.map_cons, List.append_nil, List.singleton_append, templateAt]

theorem loadAll_of_unreadable {before after : List String} {path : String} {error : FileError}
    (readable : ∀ earlier ∈ before, ∃ text, repository.files.contents earlier = .ok text)
    (unreadable : repository.files.contents path = .error error) :
    repository.loadAll mode (before ++ path :: after) =
      ⟨(before ++ [path]).map .read, .error error⟩ := by
  induction before with
  | nil => exact Traced.bind_of_error (load_of_unreadable unreadable) _
  | cons earlier before ih =>
    obtain ⟨⟨text, here⟩, later⟩ := List.forall_mem_cons.mp readable
    rw [List.cons_append]
    unfold loadAll
    rw [Traced.bind_of_ok (load_of_readable here), Traced.bind_of_error (ih later)]
    rfl

theorem list_of_unlisted {error : FileError}
    (unlisted : (repository.files.entries directory).outcome = .error error) :
    repository.list mode directory =
      ⟨(repository.files.entries directory).events, .error error⟩ := by
  unfold list
  exact Traced.bind_of_error (by rw [← unlisted]) _

theorem list_of_unreadable {before after : List String} {path : String} {error : FileError}
    (listed : (repository.files.entries directory).outcome = .ok (before ++ path :: after))
    (readable : ∀ earlier ∈ before, ∃ text, repository.files.contents earlier = .ok text)
    (unreadable : repository.files.contents path = .error error) :
    repository.list mode directory =
      ⟨(repository.files.entries directory).events ++ (before ++ [path]).map .read,
        .error error⟩ := by
  unfold list
  rw [Traced.bind_of_ok (by rw [← listed]),
    Traced.bind_of_error (loadAll_of_unreadable readable unreadable)]

theorem list_of_readable (mode : Option MatchMode) {paths : List String}
    (listed : (repository.files.entries directory).outcome = .ok paths)
    (readable : ∀ path ∈ paths, repository.files.contents path = .ok (content path)) :
    ∃ reports, MessagesOnly reports ∧
      repository.list mode directory =
        ⟨(repository.files.entries directory).events ++ paths.map .read ++ reports,
          .ok (paths.map (templateAt (mode.getD repository.mode) content))⟩ := by
  refine ⟨[.message .info s!"Loaded {paths.length} templates from {directory}"],
    messagesOnly_singleton _ _, ?_⟩
  unfold list
  rw [Traced.bind_of_ok (by rw [← listed]), Traced.bind_of_ok (loadAll_of_readable readable)]
  simp only [Traced.report, Traced.emit, bind, Traced.andThen, pure, Traced.ok, List.length_map,
    List.append_assoc, List.append_nil]

theorem best_of_list {events : List Event} {templates : List Template} (text : Text)
    (listed : repository.list mode directory = ⟨events, .ok templates⟩) :
    ∃ reports, MessagesOnly reports ∧
      repository.best mode directory text =
        ⟨events ++ reports,
          .ok ((Ranked.best (templates.map (repository.rankedFor text))).map Ranked.template)⟩ := by
  let ranked := templates.map (repository.rankedFor text)
  have noted : MessagesOnly (ranked.map Ranked.note) := messagesOnly_map fun _ => ⟨_, _, rfl⟩
  have scored : repository.scored mode directory text =
      ⟨events ++ ranked.map Ranked.note, .ok ranked⟩ := by
    unfold scored
    rw [Traced.bind_of_ok listed]
    rfl
  unfold best
  rw [Traced.bind_of_ok scored]
  cases Ranked.best ranked with
  | none =>
    refine ⟨ranked.map Ranked.note, noted, ?_⟩
    simp only [pure, Traced.ok, List.append_nil, Option.map_none]
  | some one =>
    refine ⟨ranked.map Ranked.note ++
      [.message .info s!"Best template: {one.source} score={one.score.twoPlaces}"],
      messagesOnly_append.mpr ⟨noted, messagesOnly_singleton _ _⟩, ?_⟩
    simp only [bind, Traced.andThen, Traced.report, Traced.emit, pure, Traced.ok, List.append_nil,
      List.append_assoc, Option.map_some]

end Repository

namespace Extractor

variable {extractor : Extractor} (text : Text) {directory : String} (onlyBest : Bool)
  {mode : MatchMode} {events : List Event}

theorem candidates_of_list_error {error : FileError}
    (failed : extractor.repository.list (some mode) directory = ⟨events, .error error⟩) :
    extractor.candidates text directory onlyBest mode = ⟨events, .error error⟩ := by
  unfold candidates
  split
  · have unscored : extractor.repository.best (some mode) directory text =
        ⟨events, .error error⟩ := by
      unfold Repository.best
      exact Traced.bind_of_error (Traced.bind_of_error failed _) _
    exact Traced.bind_of_error unscored _
  · exact failed

/-- Which of the templates of a directory are tried. -/
def tried (extractor : Extractor) (text : Text) (onlyBest : Bool) (templates : List Template) :
    List Template :=
  if onlyBest then
    ((Ranked.best (templates.map (extractor.repository.rankedFor text))).map
      Ranked.template).toList
  else templates

theorem candidates_of_list {templates : List Template}
    (listed : extractor.repository.list (some mode) directory = ⟨events, .ok templates⟩) :
    ∃ reports, MessagesOnly reports ∧
      extractor.candidates text directory onlyBest mode =
        ⟨events ++ reports, .ok (extractor.tried text onlyBest templates)⟩ := by
  unfold candidates tried
  cases onlyBest with
  | false => exact ⟨[], messagesOnly_nil, by simpa using listed⟩
  | true =>
    obtain ⟨reports, noted, picked⟩ := Repository.best_of_list text listed
    refine ⟨reports, noted, ?_⟩
    rw [if_pos rfl, if_pos rfl, Traced.bind_of_ok picked]
    simp only [pure, Traced.ok, List.append_nil]

end Extractor

end Stencil
