import Stencil.Pattern.Basic

/-!
What a pattern matches. Pieces are tried from left to right; a gap takes as many characters as the
rest of the pattern lets it, and optional text is taken when the rest allows. A search reports the
leftmost place where the pattern matches.
-/

set_option autoImplicit false

namespace Stencil.Pattern

/-- The captures of a match, by number; none for an optional piece that took no part. -/
abbrev Captures := List (Option Text)

/-- The longest stretch of crossable characters after which `next` succeeds, and its result. -/
def longestGap {Result : Type} (crosses : Char → Bool) (next : Text → Option Result) :
    Text → Option (Text × Result)
  | [] => (next []).map ([], ·)
  | c :: rest =>
    match if crosses c then longestGap crosses next rest else none with
    | some (taken, result) => some (c :: taken, result)
    | none => (next (c :: rest)).map ([], ·)

def matchHere? (crosses : Char → Bool) : Pattern → Text → Option Captures
  | [], _ => some []
  | .literal literal :: rest, text =>
    if literal.isPrefixOf text then matchHere? crosses rest (text.drop literal.length) else none
  | .gap :: rest, text =>
    (longestGap crosses (matchHere? crosses rest) text).map fun (taken, captures) =>
      some taken :: captures
  | .optional literal :: rest, text =>
    let taken :=
      if literal.isPrefixOf text then matchHere? crosses rest (text.drop literal.length) else none
    match taken with
    | some captures => some (some literal :: captures)
    | none => (matchHere? crosses rest text).map (none :: ·)

def leftmost? (crosses : Char → Bool) (pattern : Pattern) : Text → Option Captures
  | [] => matchHere? crosses pattern []
  | c :: rest =>
    match matchHere? crosses pattern (c :: rest) with
    | some captures => some captures
    | none => leftmost? crosses pattern rest

def tails : Text → List Text
  | [] => [[]]
  | c :: rest => (c :: rest) :: tails rest

theorem tails_eq_cons (text : Text) : tails text = text :: (tails text).tail := by
  cases text <;> rfl

end Stencil.Pattern
