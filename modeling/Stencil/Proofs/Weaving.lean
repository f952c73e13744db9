import Stencil.Proofs.RoundTrip
import Stencil.Proofs.Surroundings

/-! Levelling a text that is woven from literals and values.

Between two values that are not empty nothing is lost: levelled values have no blanks at their ends.
Where a value is empty, the literals on its two sides meet, and a blank next to another one or next
to an end of the text is levelled away, although the literal it belongs to is asked for with it. Only
where a visible character stands beside every empty value are the levelled literals all there.
-/

set_option autoImplicit false

namespace Stencil

namespace Text

/-! ## Levelled values -/

theorem length_collapseAfter_le (followsBlank : Bool) (text : Text) :
    (collapseAfter followsBlank text).length ≤ text.length := by
  induction text generalizing followsBlank with
  | nil => cases followsBlank <;> exact Nat.le_refl 0
  | cons c rest ih =>
    have later := ih true
    have other := ih false
    rw [collapseAfter]
    split
    · cases followsBlank <;> simp only [Bool.false_eq_true, if_false, if_true, List.length_cons] <;>
        omega
    · rw [List.length_cons, List.length_cons]
      omega

theorem collapse_of_levelled {value : Text} (levelled : MatchMode.whole.normalize value = value) :
    collapse value = value := by
  have short := length_collapseAfter_le false value
  have kept := trim_sublist (collapse value)
  rw [show (collapse value).trim = value from levelled] at kept
  exact (kept.eq_of_length_le short).symm

theorem visible_of_trimmed {value : Text} (trimmed : value.trim = value) :
    (∀ c ∈ value.head?, isBlank c = false) ∧ ∀ c ∈ value.getLast?, isBlank c = false := by
  constructor
  · intro c first
    rw [← trimmed] at first
    exact not_blank_of_head?_trim first
  · intro c last
    rw [← trimmed] at last
    exact not_blank_of_getLast?_trim last

theorem collapseAfter_of_head? {text : Text} {followsBlank : Bool}
    (visible : followsBlank = true → ∀ c ∈ text.head?, isBlank c = false) :
    collapseAfter followsBlank text = collapse text := by
  cases followsBlank with
  | false => rfl
  | true =>
    cases text with
    | nil => rfl
    | cons c rest =>
      simp only [collapse, collapseAfter, visible rfl c rfl, Bool.false_eq_true, if_false]

/-- A visible character stands right before or right behind a place, or nothing does at all. -/
def Flanked (before behind : Text) : Prop :=
  before ++ behind = [] ∨ (∃ c ∈ before.getLast?, isBlank c = false) ∨
    ∃ c ∈ behind.head?, isBlank c = false

/-- What literals and values are woven to before the value at an index, and behind it. -/
def around (literals values : List Text) (index : Nat) : Text × Text :=
  (weave (literals.take (index + 1)) (values.take index),
    weave (literals.drop (index + 1)) (values.drop (index + 1)))

theorem around_zero (lead : Text) (later : List Text) (value : Text) (values : List Text) :
    around (lead :: later) (value :: values) 0 = (lead, weave later values) := by
  simp [around, weave]

theorem around_succ (lead : Text) (later : List Text) (value : Text) (values : List Text)
    (index : Nat) :
    around (lead :: later) (value :: values) (index + 1) =
      (lead ++ value ++ (around later values index).1, (around later values index).2) := by
  simp [around, weave]

theorem endsBlank_append (followsBlank : Bool) (first second : Text) :
    endsBlank followsBlank (first ++ second) = endsBlank (endsBlank followsBlank first) second := by
  induction first generalizing followsBlank with
  | nil => rfl
  | cons c rest ih => rw [List.cons_append, endsBlank_cons, endsBlank_cons, ih]

theorem endsBlank_of_false {text : Text} (blank : endsBlank false text = true)
    (followsBlank : Bool) : endsBlank followsBlank text = true := by
  cases text with
  | nil => exact absurd blank (by decide)
  | cons c rest => rwa [endsBlank_cons] at blank ⊢

theorem endsBlank_of_trimmed {value : Text} (nonempty : value ≠ []) (trimmed : value.trim = value)
    (followsBlank : Bool) : endsBlank followsBlank value = false := by
  have last := List.getLast?_eq_some_getLast nonempty
  rw [endsBlank, last]
  exact (visible_of_trimmed trimmed).2 _ last

/-- Where nothing is filled in no two blanks meet, so that levelling a woven text levels its literals
and its values one by one. -/
theorem collapseAfter_weave {literals values : List Text} (followsBlank : Bool)
    (long : literals.length = values.length + 1)
    (trimmed : ∀ value ∈ values, value.trim = value)
    (begins : followsBlank = true → ∀ c ∈ (weave literals values).head?, isBlank c = false)
    (meets : ∀ index : Nat, values[index]? = some [] →
      endsBlank false (around literals values index).1 = true →
        ∀ c ∈ (around literals values index).2.head?, isBlank c = false) :
    collapseAfter followsBlank (weave literals values) =
      weave (literals.map collapse) (values.map collapse) := by
  -- What is carried is whether a blank stands before what is left.
  induction literals generalizing values followsBlank with
  | nil => simp at long
  | cons lead later ih =>
    cases values with
    | nil =>
      cases List.length_eq_zero_iff.mp (Nat.succ_inj.mp long)
      simp only [weave, List.flatten_singleton, List.map_cons, List.map_nil] at begins ⊢
      exact collapseAfter_of_head? begins
    | cons value values =>
      obtain ⟨here, rest⟩ := List.forall_mem_cons.mp trimmed
      simp only [weave, List.map_cons, List.append_assoc, collapseAfter_append] at begins ⊢
      have atLead : collapseAfter followsBlank lead = collapse lead := by
        apply collapseAfter_of_head?
        intro blank c first
        exact begins blank c (List.mem_head?_append_of_mem_head? first)
      -- What is left begins with a blank only behind a letter: a blank before it stands in front of
      -- this value, which is then empty.
      have later_begins : endsBlank (endsBlank followsBlank lead) value = true →
          ∀ c ∈ (weave later values).head?, isBlank c = false := by
        intro blank
        by_cases nonempty : value = []
        · rw [nonempty] at blank begins meets
          by_cases noLead : lead = []
          · rw [noLead] at blank begins
            exact begins blank
          · have met := meets 0 rfl
            rw [around_zero] at met
            apply met
            have last := List.getLast?_eq_some_getLast noLead
            simpa [endsBlank, last] using blank
        · rw [endsBlank_of_trimmed nonempty here] at blank
          exact absurd blank (by decide)
      have later_meets : ∀ index : Nat, values[index]? = some [] →
          endsBlank false (around later values index).1 = true →
            ∀ c ∈ (around later values index).2.head?, isBlank c = false := by
        intro index empty blank
        have met := meets (index + 1) empty
        rw [around_succ] at met
        apply met
        rw [endsBlank_append]
        exact endsBlank_of_false blank _
      have atValue : collapseAfter (endsBlank followsBlank lead) value = collapse value :=
        collapseAfter_of_head? fun _ => (visible_of_trimmed here).1
      rw [atLead, atValue, ih _ (Nat.succ_inj.mp long) rest later_begins later_meets]

theorem weave_around {literals values : List Text} (long : literals.length = values.length + 1)
    {index : Nat} {value : Text} (filled : values[index]? = some value) :
    weave literals values =
      (around literals values index).1 ++ value ++ (around literals values index).2 := by
  induction literals generalizing values index with
  | nil => simp at long
  | cons lead later ih =>
    cases values with
    | nil => simp at filled
    | cons first values =>
      cases index with
      | zero =>
        cases filled
        rw [around_zero]
        rfl
      | succ index =>
        rw [around_succ, weave, ih (Nat.succ_inj.mp long) filled]
        simp only [List.append_assoc]

theorem visible_of_head?_append {first second : Text}
    (begins : ∀ c ∈ first.head?, isBlank c = false)
    (continues : first = [] → ∀ c ∈ second.head?, isBlank c = false) :
    ∀ c ∈ (first ++ second).head?, isBlank c = false := by
  cases first with
  | nil => exact continues rfl
  | cons d rest => exact begins

theorem visible_of_getLast?_append {first second : Text}
    (ends : ∀ c ∈ second.getLast?, isBlank c = false)
    (before : second = [] → ∀ c ∈ first.getLast?, isBlank c = false) :
    ∀ c ∈ (first ++ second).getLast?, isBlank c = false := by
  by_cases nothing : second = []
  · rw [nothing, List.append_nil]
    exact before nothing
  · rw [List.getLast?_append_of_ne_nil _ nothing]
    exact ends

theorem visible_of_head?_weave {lead : Text} {later values : List Text}
    (trimmed : ∀ value ∈ values, value.trim = value)
    (begins : ∀ c ∈ lead.head?, isBlank c = false)
    (flanked : ∀ index : Nat, values[index]? = some [] →
      Flanked (around (lead :: later) values index).1 (around (lead :: later) values index).2)
    (long : later.length = values.length) :
    ∀ c ∈ (weave (lead :: later) values).head?, isBlank c = false := by
  cases values with
  | nil =>
    cases List.length_eq_zero_iff.mp long
    simpa [weave] using begins
  | cons value values =>
    rw [weave, List.append_assoc]
    apply visible_of_head?_append begins
    rintro rfl
    apply visible_of_head?_append (visible_of_trimmed (trimmed value List.mem_cons_self)).1
    rintro rfl
    have sides := flanked 0 rfl
    rw [around_zero] at sides
    rcases sides with nothing | ⟨c, last, -⟩ | ⟨c, first, visible⟩
    · rw [show weave later values = [] from nothing]
      simp
    · simp at last
    · intro d first'
      cases Option.mem_unique first first'
      exact visible

theorem visible_of_getLast?_weave {front : Text} {literals values : List Text}
    (long : literals.length = values.length + 1)
    (trimmed : ∀ value ∈ values, value.trim = value)
    (ends : ∀ literal ∈ literals.getLast?, ∀ c ∈ literal.getLast?, isBlank c = false)
    (flanked : ∀ index : Nat, values[index]? = some [] →
      Flanked (front ++ (around literals values index).1) (around literals values index).2)
    (before : weave literals values = [] → ∀ c ∈ front.getLast?, isBlank c = false) :
    ∀ c ∈ (front ++ weave literals values).getLast?, isBlank c = false := by
  -- The induction carries what has been woven before.
  induction literals generalizing front values with
  | nil => simp at long
  | cons lead later ih =>
    cases values with
    | nil =>
      cases List.length_eq_zero_iff.mp (Nat.succ_inj.mp long)
      simp only [weave, List.flatten_singleton] at before ⊢
      exact visible_of_getLast?_append (ends lead rfl) before
    | cons value values =>
      obtain ⟨here, rest⟩ := List.forall_mem_cons.mp trimmed
      have more : later ≠ [] := List.ne_nil_of_length_pos (by simp at long; omega)
      have regrouped : front ++ weave (lead :: later) (value :: values) =
          (front ++ lead ++ value) ++ weave later values := by
        simp only [weave, List.append_assoc]
      rw [regrouped]
      apply ih (Nat.succ_inj.mp long) rest
      · rwa [List.getLast?_cons_of_ne_nil more] at ends
      · intro index empty
        have sides := flanked (index + 1) empty
        rw [around_succ] at sides
        simpa only [List.append_assoc] using sides
      · intro nothing
        apply visible_of_getLast?_append (visible_of_trimmed here).2
        rintro rfl
        have sides := flanked 0 rfl
        rw [around_zero, nothing] at sides
        rcases sides with nothing | ⟨c, last, visible⟩ | ⟨c, first, -⟩
        · rw [List.append_nil] at nothing
          simp [nothing]
        · intro d last'
          cases Option.mem_unique last last'
          exact visible
        · simp at first

theorem visible_of_head?_collapse {text : Text} (begins : ∀ c ∈ text.head?, isBlank c = false) :
    ∀ c ∈ (collapse text).head?, isBlank c = false := by
  cases text with
  | nil => simp [collapse, collapseAfter]
  | cons d rest =>
    have visible := begins d rfl
    have first : (collapse (d :: rest)).head? = some d := (head?_collapseAfter visible).mpr rfl
    intro c member
    rw [first] at member
    cases member
    exact visible

theorem visible_of_getLast?_collapse {text : Text}
    (ends : ∀ c ∈ text.getLast?, isBlank c = false) :
    ∀ c ∈ (collapse text).getLast?, isBlank c = false := by
  rcases List.eq_nil_or_concat text with rfl | ⟨front, d, rfl⟩
  · simp [collapse, collapseAfter]
  · have visible := ends d (by simp)
    rw [List.concat_eq_append, collapse, collapseAfter_append]
    apply visible_of_getLast?_append
    · simp [collapseAfter, visible]
    · simp [collapseAfter, visible]

theorem normalize_weave {lead : Text} {later values : List Text}
    (long : later.length = values.length)
    (trimmed : ∀ value ∈ values, value.trim = value)
    (begins : ∀ c ∈ lead.head?, isBlank c = false)
    (ends : ∀ literal ∈ (lead :: later).getLast?, ∀ c ∈ literal.getLast?, isBlank c = false)
    (flanked : ∀ index : Nat, values[index]? = some [] →
      Flanked (around (lead :: later) values index).1 (around (lead :: later) values index).2) :
    MatchMode.whole.normalize (weave (lead :: later) values) =
      weave ((lead :: later).map collapse) (values.map collapse) := by
  have longer : (lead :: later).length = values.length + 1 := congrArg Nat.succ long
  have collapsed : collapse (weave (lead :: later) values) =
      weave ((lead :: later).map collapse) (values.map collapse) := by
    apply collapseAfter_weave false longer trimmed (by simp)
    intro index empty blank c first
    rcases flanked index empty with nothing | ⟨d, last, visible⟩ | ⟨d, first', visible⟩
    · rw [(List.append_eq_nil_iff.mp nothing).2] at first
      simp at first
    · rw [endsBlank, Option.mem_def.mp last] at blank
      rw [show isBlank d = true from blank] at visible
      exact absurd visible (by decide)
    · cases Option.mem_unique first first'
      exact visible
  have head := visible_of_head?_weave trimmed begins flanked long
  have last := @visible_of_getLast?_weave [] _ _ longer trimmed ends flanked (by simp)
  rw [← collapsed]
  exact trim_eq_self (visible_of_head?_collapse head) (visible_of_getLast?_collapse last)

/-! ## Blank forms -/

theorem endsBlank_collapseAfter (followsBlank : Bool) (text : Text) :
    endsBlank followsBlank (collapseAfter followsBlank text) = endsBlank followsBlank text := by
  induction text generalizing followsBlank with
  | nil => rfl
  | cons c rest ih =>
    rw [endsBlank_cons, collapseAfter]
    cases blank : isBlank c with
    | true =>
      cases followsBlank with
      | true => exact ih true
      | false => exact (endsBlank_cons false ' ' _).trans (ih true)
    | false =>
      rw [if_neg (by decide), endsBlank_cons, blank]
      exact ih false

theorem endsBlank_normalize (text : Text) :
    endsBlank false (MatchMode.whole.normalize text) = false := by
  rw [endsBlank]
  cases last : (MatchMode.whole.normalize text).getLast? with
  | none => rfl
  | some c => exact not_blank_of_getLast?_trim last

theorem InOrder.sublist {literals : List Text} {text : Text} (ordered : InOrder literals text) :
    List.Sublist literals.flatten text := by
  induction literals generalizing text with
  | nil => exact List.nil_sublist text
  | cons literal later ih =>
    obtain ⟨before, after, rfl, rest⟩ := ordered
    rw [List.flatten_cons]
    exact (List.sublist_append_right before literal).append (ih rest)

theorem weave_nil (literals : List Text) : weave literals [] = literals.flatten := by
  cases literals <;> rfl

theorem weave_of_blank {literals values : List Text} (blank : ∀ value ∈ values, value = []) :
    weave literals values = literals.flatten := by
  induction literals generalizing values with
  | nil => rfl
  | cons lead later ih =>
    cases values with
    | nil => rfl
    | cons value values =>
      obtain ⟨rfl, rest⟩ := List.forall_mem_cons.mp blank
      rw [weave, ih rest, List.append_nil, List.flatten_cons]

theorem length_collapseAfter_le_collapse (followsBlank : Bool) (text : Text) :
    (collapseAfter followsBlank text).length ≤ (collapse text).length := by
  cases followsBlank with
  | false => exact Nat.le_refl _
  | true =>
    rw [← trimStart_collapse]
    exact (trimStart_suffix _).length_le

theorem length_collapseAfter_weave_le (followsBlank : Bool) (literals values : List Text) :
    (collapseAfter followsBlank (weave literals values)).length ≤
      (weave (literals.map collapse) values).length := by
  induction literals generalizing values followsBlank with
  | nil => cases followsBlank <;> exact Nat.le_refl 0
  | cons lead later ih =>
    have here := length_collapseAfter_le_collapse followsBlank lead
    cases values with
    | nil =>
      have rest := ih (endsBlank followsBlank lead) []
      rw [weave_nil, weave_nil] at rest
      rw [weave_nil, weave_nil, List.map_cons, List.flatten_cons, List.flatten_cons,
        collapseAfter_append, List.length_append, List.length_append]
      omega
    | cons value values =>
      have inside := length_collapseAfter_le (endsBlank followsBlank lead) value
      have rest := ih (endsBlank (endsBlank followsBlank lead) value) values
      simp only [weave, List.map_cons, List.append_assoc, collapseAfter_append, List.length_append]
      omega

theorem length_collapse_around_le (literals values : List Text) (index : Nat) :
    (collapse (around literals values index).1).length ≤
        (around (literals.map collapse) values index).1.length ∧
      (collapse (around literals values index).2).length ≤
        (around (literals.map collapse) values index).2.length := by
  simp only [around, ← List.map_take, ← List.map_drop]
  exact ⟨length_collapseAfter_weave_le false _ _, length_collapseAfter_weave_le false _ _⟩

theorem flanked_of_length_le {before behind : Text}
    (whole : MatchMode.whole.normalize (before ++ behind) = collapse (before ++ behind))
    (room : (collapse before).length + (collapse behind).length ≤
      (collapse (before ++ behind)).length) : Flanked before behind := by
  by_cases noneBefore : before = []
  · rw [noneBefore, List.nil_append] at whole
    rw [noneBefore]
    cases behind with
    | nil => exact .inl rfl
    | cons c rest =>
      -- A blank at the start would have been trimmed off.
      refine .inr (.inr ⟨c, rfl, ?_⟩)
      by_contra blank
      have first : ' ' ∈ (MatchMode.whole.normalize (c :: rest)).head? := by
        rw [whole, collapse, collapseAfter, if_pos (by simpa using blank)]
        rfl
      exact absurd (not_blank_of_head?_trim first) (by decide)
  · have last := List.getLast?_eq_some_getLast noneBefore
    cases ends : endsBlank false before with
    | false =>
      rw [endsBlank, last] at ends
      exact .inr (.inl ⟨_, last, ends⟩)
    | true =>
      cases behind with
      | nil =>
        rw [List.append_nil] at whole
        rw [← endsBlank_collapseAfter, ← collapse, ← whole] at ends
        exact absurd ends (by simp [endsBlank_normalize])
      | cons c rest =>
        -- Of two blanks that meet one is levelled away, and there is no room for both sides.
        refine .inr (.inr ⟨c, rfl, ?_⟩)
        by_contra blank
        rw [Bool.not_eq_false] at blank
        have gone : (collapse (before ++ c :: rest)).length =
            (collapse before).length + (collapseAfter true rest).length := by
          rw [collapse, collapseAfter_append, ends, List.length_append, collapseAfter, if_pos blank,
            if_pos rfl]
          rfl
        have taken : (collapse (c :: rest)).length = (collapseAfter true rest).length + 1 := by
          rw [collapse, collapseAfter, if_pos blank]
          rfl
        omega

/-- Of a form whose fields are all blank, each literal is found only where no blank is lost: the
levelled text has room for them only if it is not shorter than all of them together. -/
theorem flanked_of_inOrder {literals values : List Text}
    (long : literals.length = values.length + 1) (blank : ∀ value ∈ values, value = [])
    (fits : InOrder (literals.map collapse) (MatchMode.whole.normalize (weave literals values)))
    {index : Nat} (empty : values[index]? = some []) :
    Flanked (around literals values index).1 (around literals values index).2 := by
  have asked := fits.sublist.length_le
  have woven : weave (literals.map collapse) values = (literals.map collapse).flatten :=
    weave_of_blank blank
  rw [← woven] at asked
  -- Nothing is trimmed off, since the levelled text is no longer than what is found in it.
  have whole : MatchMode.whole.normalize (weave literals values) =
      collapse (weave literals values) := by
    have kept := trim_sublist (collapse (weave literals values))
    have bound := length_collapseAfter_weave_le false literals values
    exact kept.eq_of_length_le (bound.trans asked)
  have split := weave_around long empty
  have split' := weave_around ((List.length_map collapse).trans long) empty
  obtain ⟨before, behind⟩ := length_collapse_around_le literals values index
  rw [whole, split', List.length_append, List.length_append, List.length_nil] at asked
  rw [List.append_nil] at split
  rw [split] at whole asked
  exact flanked_of_length_le whole (by omega)

/-! ## Blanks around -/

theorem words_blanks_append {blanks : Text} (blank : ∀ c ∈ blanks, isBlank c = true)
    (text : Text) : words (blanks ++ text) = words text := by
  induction blanks with
  | nil => rfl
  | cons c blanks ih =>
    obtain ⟨here, rest⟩ := List.forall_mem_cons.mp blank
    rw [List.cons_append, words_cons_blank here, ih rest]

theorem words_append_blanks {blanks : Text} (blank : ∀ c ∈ blanks, isBlank c = true)
    (text : Text) : words (text ++ blanks) = words text := by
  cases blanks with
  | nil => rw [List.append_nil]
  | cons c blanks =>
    obtain ⟨here, rest⟩ := List.forall_mem_cons.mp blank
    have nothing : words blanks = [] := by
      have alone := words_blanks_append rest []
      rwa [List.append_nil] at alone
    rw [words_append_blank here, nothing, List.append_nil]

theorem weave_append_lead (front lead : Text) (later values : List Text) :
    weave ((front ++ lead) :: later) values = front ++ weave (lead :: later) values := by
  cases values <;> simp [weave]

end Text

/-! ## Templates with blanks around them -/

namespace Placeholder

theorem read?_append {text name after : Text} (found : read? text = some (name, after))
    (tail : Text) : read? (text ++ tail) = some (name, after ++ tail) := by
  obtain ⟨spelling, rfl, rfl⟩ := exists_spelling_of_read? found
  rw [List.append_assoc]
  exact read?_text spelling (after ++ tail)

theorem read?_append_blanks {text blanks : Text} (missing : read? text = none)
    (blank : ∀ c ∈ blanks, Text.isBlank c = true) : read? (text ++ blanks) = none := by
  by_contra found
  obtain ⟨⟨name, after⟩, found⟩ := Option.ne_none_iff_exists'.mp found
  obtain ⟨spelling, -, written⟩ := exists_spelling_of_read? found
  rcases List.append_eq_append_iff.mp written with ⟨more, closes, behind⟩ | ⟨more, longer, -⟩
  · -- The closing brace is not among the blanks.
    rcases List.eq_nil_or_concat more with rfl | ⟨front, c, rfl⟩
    · rw [List.append_nil] at closes
      have whole := read?_text spelling []
      rw [List.append_nil, closes, missing] at whole
      exact absurd whole (by simp)
    · have ending : spelling.text.getLast? = some '}' := by
        rw [Spelling.text, List.getLast?_append_of_ne_nil _ (by simp)]
        rfl
      have last : c = '}' := by
        rw [closes] at ending
        simpa using ending
      have member : c ∈ blanks := by simp [behind]
      rw [last] at member
      exact absurd (blank _ member) (by decide)
  · rw [longer, read?_text] at missing
    exact absurd missing (by simp)

end Placeholder

namespace Passage

open Text

theorem ofText_append_blanks {blanks : Text} (blank : ∀ c ∈ blanks, isBlank c = true)
    (text : Text) :
    (ofText (text ++ blanks)).names = (ofText text).names ∧
      ∀ values, values.length = (ofText text).slots.length →
        weave (ofText (text ++ blanks)).literals values =
          weave (ofText text).literals values ++ blanks := by
  induction text using ofText.induct with
  | case1 =>
    have alone := ofText_blanks blank []
    rw [List.append_nil] at alone
    rw [List.nil_append, alone, ofText_nil]
    refine ⟨rfl, fun values count => ?_⟩
    cases List.length_eq_zero_iff.mp count
    simp [weave, literals]
  | case2 first rest name after found ih =>
    rw [ofText_placeholder found, ofText_placeholder (Placeholder.read?_append found blanks)]
    refine ⟨congrArg (name :: ·) ih.1, fun values count => ?_⟩
    cases values with
    | nil => simp at count
    | cons value values =>
      have woven := ih.2 values (Nat.succ_inj.mp count)
      simp only [literals, List.map_cons, weave, List.nil_append, List.append_assoc] at woven ⊢
      rw [woven]
  | case3 first rest missing ih =>
    have missing' := Placeholder.read?_append_blanks missing blank
    rw [List.cons_append] at missing' ⊢
    rw [ofText_letter missing, ofText_letter missing']
    refine ⟨ih.1, fun values count => ?_⟩
    have woven := ih.2 values count
    have front := fun lead later => weave_append_lead [first] lead later values
    simp only [literals, push, List.singleton_append] at woven front ⊢
    rw [front, front, woven]
    rfl

theorem weave_trim (text : Text) :
    (ofText text.trim).names = (ofText text).names ∧
      ∃ before behind, (∀ c ∈ before, isBlank c = true) ∧ (∀ c ∈ behind, isBlank c = true) ∧
        ∀ values, values.length = (ofText text).slots.length →
          weave (ofText text).literals values =
            before ++ weave (ofText text.trim).literals values ++ behind := by
  obtain ⟨front, frontBlank, whole⟩ := exists_blanks_append_trimStart text
  obtain ⟨back, backBlank, cut⟩ := exists_trimEnd_append_blanks text.trimStart
  obtain ⟨names, woven⟩ := ofText_append_blanks backBlank text.trimStart.trimEnd
  rw [← cut] at names woven
  rw [whole, ofText_blanks frontBlank, ← whole]
  refine ⟨names.symm, front, back, frontBlank, backBlank, fun values count => ?_⟩
  have same : (ofText text.trim).slots.length = (ofText text.trimStart).slots.length := by
    rw [← length_names, ← length_names, trim, names]
  rw [literals, weave_append_lead, List.append_assoc]
  exact congrArg (front ++ ·) (woven values (count.trans same.symm))

theorem lead_of_no_slots (text : Text) : (ofText text).slots = [] → (ofText text).lead = text := by
  induction text using ofText.induct with
  | case1 => simp [ofText_nil]
  | case2 first rest name after found ih => simp [ofText_placeholder found]
  | case3 first rest missing ih =>
    rw [ofText_letter missing]
    exact fun none_left => congrArg (first :: ·) (ih none_left)

theorem last_literal_suffix (text : Text) :
    ∀ literal ∈ (ofText text).literals.getLast?, literal <:+ text := by
  induction text using ofText.induct with
  | case1 => simp [ofText_nil, literals]
  | case2 first rest name after found ih =>
    intro literal last
    rw [ofText_placeholder found] at last
    exact (ih literal last).trans (Placeholder.read?_suffix found)
  | case3 first rest missing ih =>
    intro literal last
    rw [ofText_letter missing] at last
    by_cases none_left : (ofText rest).slots = []
    · have only : first :: (ofText rest).lead = literal := by
        simpa [literals, push, none_left] using last
      rw [lead_of_no_slots rest none_left] at only
      exact only ▸ List.suffix_rfl
    · have more : (ofText rest).slots.map Slot.after ≠ [] := by simpa using none_left
      apply (ih literal ?_).trans (List.suffix_cons first rest)
      simp only [literals, push] at last ⊢
      rwa [List.getLast?_cons_of_ne_nil more] at last ⊢

/-- The levelled pieces of a trimmed text stand in the levelled text with trimmed values in the place
of its placeholders, as long as no blank is lost where nothing is filled in. -/
theorem inOrder_pieces_weave {text : Text} (whole : text.trim = text) {values : List Text}
    (count : values.length = (ofText text).slots.length)
    (trimmed : ∀ value ∈ values, value.trim = value)
    (flanked : ∀ index : Nat, values[index]? = some [] →
      Flanked (around (ofText text).literals values index).1
        (around (ofText text).literals values index).2) :
    InOrder ((ofText text).pieces .whole)
      (MatchMode.whole.normalize (weave (ofText text).literals values)) := by
  have long : ((ofText text).slots.map Slot.after).length = values.length := by
    rw [List.length_map, count]
  have begins : ∀ c ∈ (ofText text).lead.head?, isBlank c = false := by
    intro c first
    obtain ⟨tail, split⟩ := lead_prefix text
    apply (visible_of_trimmed whole).1
    rw [← split]
    exact List.mem_head?_append_of_mem_head? first
  have ends : ∀ literal ∈ (ofText text).literals.getLast?,
      ∀ c ∈ literal.getLast?, isBlank c = false := by
    intro literal isLast c last
    obtain ⟨front, split⟩ := last_literal_suffix text literal isLast
    apply (visible_of_trimmed whole).2
    rw [← split]
    exact List.mem_getLast?_append_of_mem_getLast? last
  have levels : MatchMode.whole.normalize (weave (ofText text).literals values) =
      weave ((ofText text).pieces .whole) (values.map collapse) :=
    normalize_weave long trimmed begins ends flanked
  rw [levels]
  apply inOrder_weave
  rw [pieces, List.length_map, literals, List.length_cons, long, List.length_map]

end Passage

end Stencil
