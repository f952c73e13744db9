import Stencil.Text.Blank

/-!
Bindings of names to values. They keep the order in which names were first bound; binding a name
again replaces its value in place.
-/

set_option autoImplicit false

namespace Stencil

structure Bindings where
  pairs : List (Text × Text)
  distinct : (pairs.map Prod.fst).Nodup

namespace Bindings

def bindIn (name value : Text) : List (Text × Text) → List (Text × Text)
  | [] => [(name, value)]
  | (bound, old) :: rest =>
    if bound = name then (bound, value) :: rest else (bound, old) :: bindIn name value rest

theorem names_bindIn (name value : Text) (pairs : List (Text × Text)) :
    (bindIn name value pairs).map Prod.fst =
      if name ∈ pairs.map Prod.fst then pairs.map Prod.fst else pairs.map Prod.fst ++ [name] := by
  induction pairs with
  | nil => simp [bindIn]
  | cons pair rest ih =>
    obtain ⟨bound, old⟩ := pair
    by_cases same : bound = name
    · simp [bindIn, same]
    · have other : name ≠ bound := fun h => same h.symm
      simp only [bindIn, same, if_false, List.map_cons, ih, List.mem_cons, other, false_or]
      split <;> simp

theorem distinct_bindIn (name value : Text) (pairs : List (Text × Text))
    (distinct : (pairs.map Prod.fst).Nodup) : ((bindIn name value pairs).map Prod.fst).Nodup := by
  rw [names_bindIn]
  split
  · exact distinct
  · rename_i fresh
    rw [List.nodup_append]
    refine ⟨distinct, by simp, ?_⟩
    intro bound member other isName same
    simp only [List.mem_singleton] at isName
    subst isName same
    exact fresh member

def empty : Bindings := ⟨[], by simp⟩

/-- Binds a name, at the end when it is new and in its place when it is not. -/
def bind (bindings : Bindings) (name value : Text) : Bindings :=
  ⟨bindIn name value bindings.pairs, distinct_bindIn name value bindings.pairs bindings.distinct⟩

def ofList (pairs : List (Text × Text)) : Bindings :=
  pairs.foldl (fun bindings (name, value) => bindings.bind name value) empty

def get? (bindings : Bindings) (name : Text) : Option Text :=
  bindings.pairs.lookup name

def contains (bindings : Bindings) (name : Text) : Bool :=
  (bindings.get? name).isSome

def names (bindings : Bindings) : List Text :=
  bindings.pairs.map Prod.fst

def size (bindings : Bindings) : Nat :=
  bindings.pairs.length

def isEmpty (bindings : Bindings) : Bool :=
  bindings.pairs.isEmpty

/-- Whether two bindings give the same names the same values, in whatever order. -/
def sameItems (first second : Bindings) : Bool :=
  first.size == second.size &&
    first.pairs.all fun (name, value) => second.get? name == some value

theorem lookup_pair (name value other : Text) (rest : List (Text × Text)) :
    ((name, value) :: rest).lookup other = if other = name then some value else rest.lookup other := by
  by_cases same : other = name
  · simp [same]
  · have differs : (other == name) = false := by simpa using same
    simp [List.lookup_cons, differs, same]

theorem lookup_bindIn (name value other : Text) (pairs : List (Text × Text)) :
    (bindIn name value pairs).lookup other =
      if other = name then some value else pairs.lookup other := by
  induction pairs with
  | nil => simp only [bindIn, lookup_pair]
  | cons pair rest ih =>
    obtain ⟨bound, old⟩ := pair
    by_cases here : bound = name
    · subst here
      by_cases same : other = bound <;> simp [bindIn, lookup_pair, same]
    · simp only [bindIn, here, if_false, lookup_pair, ih]
      by_cases same : other = bound
      · simp [same, here]
      · simp [same]

theorem get?_bind (bindings : Bindings) (name value other : Text) :
    (bindings.bind name value).get? other =
      if other = name then some value else bindings.get? other :=
  lookup_bindIn name value other bindings.pairs

theorem names_bind (bindings : Bindings) (name value : Text) :
    (bindings.bind name value).names =
      if name ∈ bindings.names then bindings.names else bindings.names ++ [name] :=
  names_bindIn name value bindings.pairs

end Bindings

/-- What was extracted from a text, and the label of the template that it was extracted with. -/
structure Extraction where
  values : Bindings
  source : String

end Stencil
