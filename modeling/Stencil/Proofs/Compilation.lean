import Stencil.Pattern.Compile
import Stencil.Proofs.Placement
import Stencil.Proofs.Spelling

/-! What compiling makes of a template: the pieces of literal text that its patterns ask for, and when
it succeeds.
-/

set_option autoImplicit false

namespace Stencil

namespace Passage

/-- The literal texts that a passage is searched for by, in order. -/
def pieces (mode : MatchMode) (passage : Passage) : List Text :=
  passage.literals.map mode.level

theorem pieces_eq (mode : MatchMode) (passage : Passage) :
    passage.pieces mode =
      mode.level passage.lead :: passage.slots.map fun slot => mode.level slot.after := by
  simp only [pieces, literals, List.map_cons, List.map_map]
  rfl

theorem pattern_eq (mode : MatchMode) (passage : Passage) :
    passage.pattern mode = .literal (mode.level passage.lead) ::
      Pattern.spaced (passage.slots.map fun slot => mode.level slot.after) := by
  simp only [pattern, Pattern.spaced, List.flatMap_map]

theorem length_names (passage : Passage) : passage.names.length = passage.slots.length :=
  List.length_map _

theorem ofText_nil : ofText [] = ⟨[], []⟩ := by
  rw [ofText]

theorem ofText_placeholder {text name after : Text}
    (found : Placeholder.read? text = some (name, after)) :
    ofText text = ⟨[], ⟨name, (ofText after).lead⟩ :: (ofText after).slots⟩ := by
  cases text with
  | nil => simp [Placeholder.read?] at found
  | cons c rest =>
    rw [ofText]
    split
    · rename_i same
      rw [found] at same
      cases same
      rfl
    · rename_i missing
      simp [found] at missing

theorem ofText_letter {c : Char} {rest : Text} (missing : Placeholder.read? (c :: rest) = none) :
    ofText (c :: rest) = (ofText rest).push c := by
  rw [ofText]
  split
  · rename_i found
    simp [missing] at found
  · rfl

theorem mem_of_mem_literals {text literal : Text} {c : Char}
    (member : literal ∈ (ofText text).literals) (letter : c ∈ literal) : c ∈ text := by
  induction text using ofText.induct generalizing literal with
  | case1 =>
    rw [ofText_nil] at member
    simp_all [literals]
  | case2 first rest name after found ih =>
    rw [ofText_placeholder found] at member
    rcases List.mem_cons.mp member with rfl | member
    · exact absurd letter List.not_mem_nil
    · exact (Placeholder.read?_suffix found).subset (ih member letter)
  | case3 first rest missing ih =>
    rw [ofText_letter missing] at member
    rcases List.mem_cons.mp member with rfl | member
    · rcases List.mem_cons.mp letter with rfl | letter
      · exact List.mem_cons_self
      · exact List.mem_cons_of_mem _ (ih List.mem_cons_self letter)
    · exact List.mem_cons_of_mem _ (ih (List.mem_cons_of_mem _ member) letter)

theorem lead_prefix (text : Text) : (ofText text).lead <+: text := by
  induction text using ofText.induct with
  | case1 => simp [ofText_nil]
  | case2 first rest name after found => simp [ofText_placeholder found]
  | case3 first rest missing ih =>
    rw [ofText_letter missing]
    exact (List.prefix_cons_inj first).mpr ih

end Passage

namespace Compiled

theorem outcome_compile_lenient (mode : MatchMode) (label : String) (content : Text) :
    (compile mode false label content).outcome = .ok (ofTemplate mode content) := rfl

theorem outcome_compile_strict (mode : MatchMode) (label : String) (content : Text) :
    (compile mode true label content).outcome =
      match (mode.malformed content).head? with
      | some fragment => .error (.malformed label fragment)
      | none => .ok (ofTemplate mode content) := by
  simp only [compile, if_true]
  cases (mode.malformed content).head? <;> rfl

theorem exists_error_compile_strict_iff {mode : MatchMode} {label : String} {content : Text} :
    (∃ failure, (compile mode true label content).outcome = .error failure) ↔
      mode.malformed content ≠ [] := by
  rw [outcome_compile_strict]
  cases mode.malformed content <;> simp

/-- Compiling either stops at a stray delimiter, where those are errors, or gives the patterns of the
template. -/
theorem compile_cases (mode : MatchMode) (strict : Bool) (label : String) (content : Text) :
    (∃ fragment others, strict = true ∧ mode.malformed content = fragment :: others ∧
      (compile mode strict label content).outcome = .error (.malformed label fragment)) ∨
    ((strict = true → mode.malformed content = []) ∧
      (compile mode strict label content).outcome = .ok (ofTemplate mode content)) := by
  cases strict with
  | false => exact .inr ⟨fun strict => absurd strict (by decide), outcome_compile_lenient _ _ _⟩
  | true =>
    rw [outcome_compile_strict]
    cases stray : mode.malformed content with
    | nil => exact .inr ⟨fun _ => rfl, rfl⟩
    | cons fragment others => exact .inl ⟨fragment, others, rfl, rfl, rfl⟩

theorem outcome_compile_of_malformed_nil {mode : MatchMode} {content : Text}
    (clear : mode.malformed content = []) (strict : Bool) (label : String) :
    (compile mode strict label content).outcome = .ok (ofTemplate mode content) := by
  rcases compile_cases mode strict label content with ⟨_, _, -, stray, -⟩ | ⟨-, compiles⟩
  · rw [clear] at stray
    exact absurd stray (by simp)
  · exact compiles

theorem eq_ofTemplate_of_compile {mode : MatchMode} {strict : Bool} {label : String}
    {content : Text} {compiled : Compiled}
    (compiles : (compile mode strict label content).outcome = .ok compiled) :
    compiled = ofTemplate mode content := by
  cases strict with
  | false => exact (Except.ok.inj compiles).symm
  | true =>
    rw [outcome_compile_strict] at compiles
    split at compiles
    · exact absurd compiles (by simp)
    · exact (Except.ok.inj compiles).symm

end Compiled

end Stencil
