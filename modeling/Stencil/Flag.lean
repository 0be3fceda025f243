/-!
# Yes-and-no words

Some attributes take a boolean and, besides, a fixed set of words for yes and no. The words are
matched exactly, upper and lower case being different.

## Main definitions

* `Flag.ofWord?` is the boolean that a word stands for.
* `Flag.acceptedWords` lists the words, in the order in which messages list them.

## Main results

* `Flag.ofWord?_isSome_iff`: the accepted words are exactly those listed.
-/

namespace Stencil

namespace Flag

/-- The words for no. -/
def falseWords : List String := ["n", "no", "f", "false"]

/-- The words for yes. -/
def trueWords : List String := ["y", "yes", "t", "true"]

/-- Every accepted word, those for no first. -/
def acceptedWords : List String := falseWords ++ trueWords

/-- The boolean that a word stands for. -/
def ofWord? (word : String) : Option Bool :=
  if word ∈ trueWords then some true
  else if word ∈ falseWords then some false
  else none

/-- A word is accepted exactly when it is listed. -/
theorem ofWord?_isSome_iff {word : String} :
    (ofWord? word).isSome ↔ word ∈ acceptedWords := by
  unfold ofWord? acceptedWords
  rw [List.mem_append]
  split
  · simp_all
  · split <;> simp_all

end Flag

end Stencil
