import Stencil.Extractor
import Stencil.Proofs.Accumulation

/-! What an extractor answers, apart from the events on the way. -/

set_option autoImplicit false

namespace Stencil.Extractor

theorem outcome_extractText (extractor : Extractor) (cutoff : Cutoff) (text content : Text)
    (mode : Option MatchMode) (source : String) :
    (extractor.extractText cutoff text content mode source).outcome =
      match (Compiled.compile (mode.getD extractor.mode) extractor.strict source content).outcome with
      | .error failure => .error failure
      | .ok compiled =>
        match compiled.extract cutoff source ((mode.getD extractor.mode).normalize text) with
        | .ok extraction => .ok extraction
        | .error error => .error (.extraction error) := by
  unfold extractText
  simp only [bind, Traced.andThen]
  cases (Compiled.compile (mode.getD extractor.mode) extractor.strict source content).outcome with
  | error failure => rfl
  | ok compiled =>
    simp only [Traced.mapError, Traced.ofExcept]
    cases compiled.extract cutoff source ((mode.getD extractor.mode).normalize text) <;> rfl

/-- What an extractor answers and reports depends on what is extracted from the text once it is
normalized, and on nothing else of the text. -/
theorem extractText_congr (extractor : Extractor) (cutoff : Cutoff) {text text' : Text}
    (content : Text) (mode : Option MatchMode) (source : String)
    (same : (Compiled.ofTemplate (mode.getD extractor.mode) content).extract cutoff source
        ((mode.getD extractor.mode).normalize text') =
      (Compiled.ofTemplate (mode.getD extractor.mode) content).extract cutoff source
        ((mode.getD extractor.mode).normalize text)) :
    extractor.extractText cutoff text' content mode source =
      extractor.extractText cutoff text content mode source := by
  unfold extractText
  simp only [bind, Traced.andThen]
  cases compiles : (Compiled.compile (mode.getD extractor.mode) extractor.strict source
      content).outcome with
  | error failure => rfl
  | ok compiled =>
    cases Compiled.eq_ofTemplate_of_compile compiles
    simp only [same]

theorem outcome_extractText_unlimited {extractor : Extractor} (unlimited : extractor.timeLimit = none)
    (text content : Text) (mode : Option MatchMode) (source : String) :
    (extractor.extractText extractor.timeLimit.cutoff text content mode source).outcome =
      let found := Compiled.found (mode.getD extractor.mode) content
        ((mode.getD extractor.mode).normalize text)
      let stray := ((mode.getD extractor.mode).malformed content).head?
      match if extractor.strict then stray else none with
      | some fragment => .error (.malformed source fragment)
      | none => .ok (if found.isEmpty then none else some ⟨.report .empty found, source⟩) := by
  have never : extractor.timeLimit.cutoff = .never := by rw [unlimited]; rfl
  rw [outcome_extractText, never]
  cases extractor.strict with
  | false =>
    rw [Compiled.outcome_compile_lenient]
    simp only [Compiled.extract_ofTemplate]
    rfl
  | true =>
    rw [Compiled.outcome_compile_strict]
    simp only [if_true]
    cases ((mode.getD extractor.mode).malformed content).head? with
    | some fragment => rfl
    | none => simp only [Compiled.extract_ofTemplate]

theorem outcome_extractText_lenient {extractor : Extractor} (lenient : extractor.strict = false)
    (unlimited : extractor.timeLimit = none) (text content : Text) (mode : Option MatchMode)
    (source : String) :
    (extractor.extractText extractor.timeLimit.cutoff text content mode source).outcome =
      let found := Compiled.found (mode.getD extractor.mode) content
        ((mode.getD extractor.mode).normalize text)
      .ok (if found.isEmpty then none else some ⟨.report .empty found, source⟩) := by
  rw [outcome_extractText_unlimited unlimited, lenient]
  rfl

end Stencil.Extractor
