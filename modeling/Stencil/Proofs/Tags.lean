import Stencil.Proofs.Cleaning

/-! Tags in values, and what cleaning a value leaves of it.

Taking tags out undoes putting them in: what is left of a value is the one text without tags of its
own that the value can be had from by putting in tags, closed ones anywhere but right behind a `<`,
and an unclosed one at the very end. Trimming comes after that, and may lay bare a last `<` which was
no tag as long as a blank stood behind it.
-/

set_option autoImplicit false

namespace Stencil.Text

/-- What may stand in a tag: nothing that closes it, and no blank at the start. -/
def IsTagBody (body : Text) : Prop :=
  '>' ∉ body ∧ ∀ c ∈ body.head?, isBlank c = false

theorem isTagBody_iff {body : Text} : IsTagBody body ↔ '>' ∉ body ∧ opensTag body = true := by
  cases body <;> simp [IsTagBody, opensTag]

instance (body : Text) : Decidable (IsTagBody body) :=
  decidable_of_iff _ isTagBody_iff.symm

/-- Closed tags, one after the other. -/
def closedTags (bodies : List Text) : Text :=
  bodies.flatMap fun body => '<' :: body ++ ['>']

def unclosedTag : Option Text → Text
  | none => []
  | some body => '<' :: body

/-- A text with closed tags in front of each of its characters and at its end. -/
def withClosedTags : (Nat → List Text) → Text → Text
  | bodies, [] => closedTags (bodies 0)
  | bodies, c :: rest =>
    closedTags (bodies 0) ++ c :: withClosedTags (fun place => bodies (place + 1)) rest

/-- Tags for a text, by the place in front of which they are put in; none of them comes right behind
a `<` of the text. One more may stand unclosed at the very end. -/
structure Tagging (plain : Text) where
  bodies : Nat → List Text
  unclosed : Option Text
  closed_isTagBody : ∀ place, ∀ body ∈ bodies place, IsTagBody body
  unclosed_isTagBody : ∀ body ∈ unclosed, IsTagBody body
  apart : ∀ place : Nat, plain[place]? = some '<' → bodies (place + 1) = []

namespace Tagging

variable {plain : Text} {c : Char}

/-- The text with the tags put in. -/
def text (tagging : Tagging plain) : Text :=
  withClosedTags tagging.bodies plain ++ unclosedTag tagging.unclosed

/-- The tags behind the first character. -/
def behind (tagging : Tagging (c :: plain)) : Tagging plain where
  bodies place := tagging.bodies (place + 1)
  unclosed := tagging.unclosed
  closed_isTagBody place := tagging.closed_isTagBody (place + 1)
  unclosed_isTagBody := tagging.unclosed_isTagBody
  apart place := tagging.apart (place + 1)

theorem text_eq_behind (tagging : Tagging (c :: plain)) :
    tagging.text = closedTags (tagging.bodies 0) ++ c :: tagging.behind.text := by
  simp only [text, withClosedTags, behind, List.append_assoc, List.cons_append]

end Tagging

/-- A value comes from a text by putting in tags. -/
def IsTagged (plain value : Text) : Prop :=
  ∃ tagging : Tagging plain, tagging.text = value

/-! ## Taking out what was put in -/

section
variable {body rest : Text}

theorem IsTagBody.opensTag_append (isTagBody : IsTagBody body) :
    opensTag (body ++ '>' :: rest) = true := by
  cases body with
  | nil => exact congrArg (!·) (by decide : isBlank '>' = false)
  | cons c body => exact (isTagBody_iff.mp isTagBody).2

theorem withoutTagsFrom_closed (unclosed : '>' ∉ body) :
    withoutTagsFrom true (body ++ '>' :: rest) = withoutTagsFrom false rest := by
  induction body with
  | nil => rfl
  | cons c body ih =>
    rw [List.mem_cons, not_or] at unclosed
    have other : (c != '>') = true := by simpa using Ne.symm unclosed.1
    rw [List.cons_append, withoutTagsFrom, other]
    exact ih unclosed.2

theorem withoutTagsFrom_unclosed (unclosed : '>' ∉ body) : withoutTagsFrom true body = [] := by
  induction body with
  | nil => rfl
  | cons c body ih =>
    rw [List.mem_cons, not_or] at unclosed
    have other : (c != '>') = true := by simpa using Ne.symm unclosed.1
    rw [withoutTagsFrom, other]
    exact ih unclosed.2

theorem withoutTags_closedTags_append {bodies : List Text}
    (areBodies : ∀ body ∈ bodies, IsTagBody body) :
    withoutTags (closedTags bodies ++ rest) = withoutTags rest := by
  induction bodies with
  | nil => rfl
  | cons body bodies ih =>
    obtain ⟨here, later⟩ := List.forall_mem_cons.mp areBodies
    have shape : closedTags (body :: bodies) ++ rest =
        '<' :: (body ++ '>' :: (closedTags bodies ++ rest)) := by
      simp [closedTags]
    rw [shape, withoutTags, withoutTagsFrom, here.opensTag_append, if_pos (by decide),
      withoutTagsFrom_closed here.1]
    exact ih later

theorem withoutTags_unclosedTag {unclosed : Option Text}
    (isTagBody : ∀ body ∈ unclosed, IsTagBody body) : withoutTags (unclosedTag unclosed) = [] := by
  cases unclosed with
  | none => rfl
  | some body =>
    obtain ⟨unclosed, opens⟩ := isTagBody_iff.mp (isTagBody body rfl)
    rw [unclosedTag, withoutTags, withoutTagsFrom, opens, if_pos (by decide),
      withoutTagsFrom_unclosed unclosed]

theorem withoutTags_letter {c : Char} (kept : c = '<' → opensTag rest = false) :
    withoutTags (c :: rest) = c :: withoutTags rest := by
  rw [withoutTags, withoutTagsFrom, if_neg (by simpa using kept)]
  rfl

end

theorem Tagging.withoutTags_text {plain : Text} (free : TagFree plain) (tagging : Tagging plain) :
    withoutTags tagging.text = plain := by
  induction plain with
  | nil =>
    rw [text, withClosedTags, withoutTags_closedTags_append (tagging.closed_isTagBody 0),
      withoutTags_unclosedTag tagging.unclosed_isTagBody]
  | cons c plain ih =>
    obtain ⟨here, later⟩ := tagFree_cons.mp free
    -- No tag parts a `<` of the text from the blank behind it.
    have kept : c = '<' → opensTag tagging.behind.text = false := by
      intro angle
      obtain ⟨d, first, blank⟩ := opensTag_eq_false_iff.mp (here angle)
      obtain ⟨rest, rfl⟩ : ∃ rest, plain = d :: rest := List.head?_eq_some_iff.mp first
      have none_between : tagging.behind.bodies 0 = [] := tagging.apart 0 (by rw [angle]; rfl)
      rw [text_eq_behind, none_between]
      exact opensTag_eq_false_iff.mpr ⟨d, rfl, blank⟩
    rw [text_eq_behind, withoutTags_closedTags_append (tagging.closed_isTagBody 0),
      withoutTags_letter kept, ih later]

/-! ## Every value is a text with tags put in -/

theorem tagFree_withoutTagsFrom (inside : Bool) (value : Text) :
    TagFree (withoutTagsFrom inside value) := by
  induction value generalizing inside with
  | nil => exact withoutTags_eq_self_iff.mp (by cases inside <;> rfl)
  | cons c rest ih =>
    cases inside with
    | true => exact ih _
    | false =>
      rw [withoutTagsFrom]
      split
      · exact ih true
      · rename_i kept
        refine tagFree_cons.mpr ⟨?_, ih false⟩
        rintro rfl
        obtain ⟨d, first, blank⟩ : ∃ d ∈ rest.head?, isBlank d = true :=
          opensTag_eq_false_iff.mp (by simpa using kept)
        obtain ⟨later, rfl⟩ := List.head?_eq_some_iff.mp first
        have letter : d ≠ '<' := by
          rintro rfl
          exact absurd blank (by decide)
        have stays : withoutTagsFrom false (d :: later) = d :: withoutTagsFrom false later :=
          withoutTags_letter fun angle => absurd angle letter
        rw [stays]
        exact opensTag_eq_false_iff.mpr ⟨d, rfl, blank⟩

namespace IsTagged

variable {plain value : Text}

theorem ofUnclosed (unclosed : Option Text) (isTagBody : ∀ body ∈ unclosed, IsTagBody body) :
    IsTagged [] (unclosedTag unclosed) :=
  ⟨⟨fun _ => [], unclosed, by simp, isTagBody, by simp⟩, rfl⟩

theorem addTag {body : Text} (isTagBody : IsTagBody body) (tagged : IsTagged plain value) :
    IsTagged plain ('<' :: body ++ '>' :: value) := by
  obtain ⟨⟨bodies, unclosed, areBodies, isBody, apart⟩, rfl⟩ := tagged
  let more : Nat → List Text
    | 0 => body :: bodies 0
    | place + 1 => bodies (place + 1)
  have areMore : ∀ place, ∀ body ∈ more place, IsTagBody body
    | 0 => List.forall_mem_cons.mpr ⟨isTagBody, areBodies 0⟩
    | place + 1 => areBodies (place + 1)
  refine ⟨⟨more, unclosed, areMore, isBody, apart⟩, ?_⟩
  cases plain <;> simp [Tagging.text, withClosedTags, closedTags, more]

theorem addLetter {c : Char} (kept : c = '<' → opensTag value = false)
    (tagged : IsTagged plain value) : IsTagged (c :: plain) (c :: value) := by
  obtain ⟨⟨bodies, unclosed, areBodies, isBody, apart⟩, rfl⟩ := tagged
  let shifted : Nat → List Text
    | 0 => []
    | place + 1 => bodies place
  have areShifted : ∀ place, ∀ body ∈ shifted place, IsTagBody body
    | 0 => by simp [shifted]
    | place + 1 => areBodies place
  refine ⟨⟨shifted, unclosed, areShifted, isBody, ?_⟩, rfl⟩
  intro place angle
  cases place with
  | succ place => exact apart place angle
  | zero =>
    -- A tag right behind a `<` would make that one open a tag as well.
    show bodies 0 = []
    have blank := kept (by simpa using angle)
    cases here : bodies 0 with
    | nil => rfl
    | cons body others =>
      cases plain <;> simp [Tagging.text, withClosedTags, closedTags, here, opensTag] at blank
        <;> exact absurd blank (by decide)

end IsTagged

/-- The tags of a value, read from outside of a tag and from inside of one. -/
theorem isTagged_withoutTagsFrom (value : Text) :
    IsTagged (withoutTagsFrom false value) value ∧
    ∀ front, '>' ∉ front → opensTag (front ++ value) = true →
      IsTagged (withoutTagsFrom true value) ('<' :: front ++ value) := by
  have isTagBody {front behind : Text} (unclosed : '>' ∉ front)
      (opens : opensTag (front ++ behind) = true) : IsTagBody front := by
    cases front with
    | nil => exact ⟨unclosed, by simp⟩
    | cons d front => exact isTagBody_iff.mpr ⟨unclosed, opens⟩
  -- Inside of a tag, what has been read since its opening is carried in front.
  induction value with
  | nil =>
    refine ⟨.ofUnclosed none (by simp), fun front unclosed opens => ?_⟩
    rw [List.append_nil]
    apply IsTagged.ofUnclosed (some front)
    rintro _ ⟨⟩
    exact isTagBody unclosed opens
  | cons c rest ih =>
    obtain ⟨outside, inside⟩ := ih
    constructor
    · rw [withoutTagsFrom]
      split
      · rename_i opens
        rw [Bool.and_eq_true, decide_eq_true_eq] at opens
        rw [opens.1]
        exact inside [] List.not_mem_nil opens.2
      · rename_i kept
        exact outside.addLetter (by simpa using kept)
    · intro front unclosed opens
      rw [withoutTagsFrom]
      by_cases closing : c = '>'
      · subst closing
        exact outside.addTag (isTagBody unclosed opens)
      · have other : (c != '>') = true := by simpa using closing
        have unclosed' : '>' ∉ front ++ [c] := by simpa [unclosed] using Ne.symm closing
        have regrouped : front ++ c :: rest = (front ++ [c]) ++ rest := by simp
        rw [regrouped] at opens
        rw [other, List.cons_append, regrouped]
        exact inside (front ++ [c]) unclosed' opens

/-- What is left of a value is the text without tags of its own that the value comes from by putting
in tags. -/
theorem withoutTags_eq_iff {value plain : Text} :
    withoutTags value = plain ↔ TagFree plain ∧ IsTagged plain value := by
  constructor
  · rintro rfl
    exact ⟨tagFree_withoutTagsFrom false value, (isTagged_withoutTagsFrom value).1⟩
  · rintro ⟨free, tagging, rfl⟩
    exact tagging.withoutTags_text free

/-- Tags leave no trace. Whatever is put in, closed tags anywhere but right behind a `<` of the text
and an unclosed one at the end, taking tags out gives back the text, and cleaning gives it back
trimmed. -/
theorem tags_leave_no_trace {plain : Text} (free : TagFree plain) (tagging : Tagging plain) :
    withoutTags tagging.text = plain ∧ clean tagging.text = plain.trim := by
  have plainly := tagging.withoutTags_text free
  exact ⟨plainly, congrArg trim plainly⟩

/-- A comparison and a stray `>` stay; a tag with a `<` and a line break in it, an empty one, one next
to another and one that is not closed go. -/
theorem tags_leave_no_trace_of_comparison :
    let plain := " 1 < 2 > 0\n".toList
    let bodies : Nat → List Text
      | 0 => ["p <q\n".toList]
      | 5 => [[], "/b".toList]
      | 11 => ["br/".toList]
      | _ => []
    TagFree plain ∧ ∃ tagging : Tagging plain,
      tagging.bodies = bodies ∧ tagging.unclosed = some "i <".toList ∧
      tagging.text = "<p <q\n> 1 < <></b>2 > 0\n<br/><i <".toList ∧
      clean tagging.text = "1 < 2 > 0".toList := by
  intro plain bodies
  have free : TagFree plain := by decide +kernel
  have areBodies : ∀ place, ∀ body ∈ bodies place, IsTagBody body
    | 0 => by decide
    | 5 => by decide
    | 11 => by decide
    | 1 | 2 | 3 | 4 | 6 | 7 | 8 | 9 | 10 | _ + 12 => by simp [bodies]
  have apart : ∀ place : Nat, plain[place]? = some '<' → bodies (place + 1) = [] := by
    have within : ∀ place < 11, plain[place]? = some '<' → bodies (place + 1) = [] := by
      decide +kernel
    intro place angle
    exact within place (List.getElem?_eq_some_iff.mp angle).1 angle
  let tagging : Tagging plain := ⟨bodies, some "i <".toList, areBodies, by decide, apart⟩
  have cleaned := (tags_leave_no_trace free tagging).2
  exact ⟨free, tagging, rfl, rfl, rfl, cleaned.trans (by decide +kernel)⟩

/-! ## What cleaning leaves -/

theorem TagFree.opens_of_trim {text before after : Text} (free : TagFree text)
    (split : text.trim = before ++ '<' :: after) :
    after = [] ∨ ∃ c ∈ after.head?, isBlank c = true := by
  obtain ⟨front, behind, -, -, whole⟩ := exists_blanks_append_trim text
  cases after with
  | nil => exact .inl rfl
  | cons d after =>
    rw [split] at whole
    obtain ⟨c, first, blank⟩ := free (front ++ before) (d :: after ++ behind) (by simpa using whole)
    exact .inr ⟨c, first, blank⟩

section
variable {value : Text}

theorem opens_of_clean {before after : Text} (split : clean value = before ++ '<' :: after) :
    after = [] ∨ ∃ c ∈ after.head?, isBlank c = true :=
  (tagFree_withoutTagsFrom false value).opens_of_trim split

theorem tagFree_clean_iff : TagFree (clean value) ↔ (clean value).getLast? ≠ some '<' := by
  constructor
  · intro free last
    obtain ⟨front, split⟩ := List.getLast?_eq_some_iff.mp last
    obtain ⟨c, first, -⟩ := free front [] split
    exact absurd first (by simp)
  · intro last before after split
    refine (opens_of_clean split).resolve_left ?_
    rintro rfl
    exact last (by rw [split]; simp)

theorem clean_clean_eq_iff : clean (clean value) = clean value ↔ TagFree (clean value) := by
  constructor
  · intro same
    -- What is taken out does not come back.
    have shorter := (trim_sublist (withoutTags (clean value))).length_le
    rw [show trim (withoutTags (clean value)) = clean value from same] at shorter
    exact withoutTags_eq_self_iff.mp
      ((withoutTagsFrom_sublist false (clean value)).eq_of_length_le shorter)
  · exact clean_eq_self (trim_trim _)

theorem getLast?_clean_eq_angle_iff : (clean value).getLast? = some '<' ↔
    ∃ front blanks, blanks ≠ [] ∧ (∀ c ∈ blanks, isBlank c = true) ∧
      withoutTags value = front ++ '<' :: blanks := by
  rw [clean, getLast?_trim_eq_some_iff (by decide)]
  constructor
  · rintro ⟨front, blanks, blank, split⟩
    refine ⟨front, blanks, ?_, blank, split⟩
    rintro rfl
    obtain ⟨c, first, -⟩ := tagFree_withoutTagsFrom false value front [] split
    exact absurd first (by simp)
  · rintro ⟨front, blanks, -, blank, split⟩
    exact ⟨front, blanks, blank, split⟩

end

/-- Cleaning leaves no tag but a last `<` that was bared. A cleaned value has no blanks at its ends,
and each `<` in it is its last character or has a blank behind it. It ends with a `<` exactly when
nothing but blanks stands behind the last `<` of the value without its tags; exactly then there is
something left in it that opens a tag, and exactly then cleaning it once more changes it. -/
theorem cleaning_leaves_at_most_a_bared_angle (value : Text) :
    let cleaned := clean value
    (∀ c ∈ cleaned.head?, isBlank c = false) ∧
    (∀ c ∈ cleaned.getLast?, isBlank c = false) ∧
    (∀ before after, cleaned = before ++ '<' :: after →
      after = [] ∨ ∃ c ∈ after.head?, isBlank c = true) ∧
    (cleaned.getLast? = some '<' ↔ ∃ front blanks, blanks ≠ [] ∧
      (∀ c ∈ blanks, isBlank c = true) ∧ withoutTags value = front ++ '<' :: blanks) ∧
    (TagFree cleaned ↔ cleaned.getLast? ≠ some '<') ∧
    (clean cleaned = cleaned ↔ cleaned.getLast? ≠ some '<') :=
  ⟨fun _ => not_blank_of_head?_trim, fun _ => not_blank_of_getLast?_trim,
    fun _ _ => opens_of_clean, getLast?_clean_eq_angle_iff, tagFree_clean_iff,
    clean_clean_eq_iff.trans tagFree_clean_iff⟩

/-- A blank behind the `<` keeps it from being a tag, and is then trimmed off. What is left is a tag
that a second cleaning takes out. -/
theorem trimming_bares_a_tag :
    let cleaned := clean "< ".toList
    cleaned = "<".toList ∧ ¬ TagFree cleaned ∧ clean cleaned = [] ∧ clean cleaned ≠ cleaned := by
  decide +kernel

end Stencil.Text
