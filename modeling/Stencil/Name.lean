/-!
# Names of templates

A template name is a path of segments separated by slashes, relative to the root of the loader. It
may begin with a *scheme*, the text up to and including the first `://`, which selects a namespace
of its own. The *normal form* of a name keeps the scheme, drops empty segments and `.`, and lets
`..` take back the segment before it.

A name written inside a template is resolved against the directory of that template, unless it
begins with a slash or names a scheme.

## Main definitions

* `Name.splitScheme` divides a name into its scheme and its path.
* `Name.normalize` is the normal form of a name, or the defect that keeps it from having one.
* `Name.resolve base target` is the normal form of `target` as written in the template `base`.

## Main results

* `Name.climb_ordinary`: the segments of a normal form are ordinary ones.
-/

namespace Stencil

namespace Name

/-- Why a name has no normal form. -/
inductive Defect
  /-- It contains a backslash. -/
  | backslash
  /-- It contains the character NUL. -/
  | nul
  /-- Some `..` has no segment before it to take back. -/
  | aboveRoot
  deriving Repr, DecidableEq

/-- The wording of a defect. -/
def Defect.describe : Defect → String
  | backslash =>
    "Backslash (\"\\\") is not allowed in template names. Use slash (\"/\") instead."
  | nul => "Null character (\\u0000) in the name; possible attack attempt"
  | aboveRoot => "Backing out from the root directory is not allowed"

/-- The characters before the first `://` and those after it. -/
def splitAtMark : List Char → Option (List Char × List Char)
  | [] => none
  | ':' :: '/' :: '/' :: rest => some ([], rest)
  | c :: rest => (splitAtMark rest).map fun (s, p) => (c :: s, p)

/-- The scheme of a name, with its `://`, and the path behind it. A name whose first `://` stands
at its very beginning has no scheme. -/
def splitScheme (name : List Char) : List Char × List Char :=
  match splitAtMark name with
  | some (c :: s, path) => (c :: s ++ [':', '/', '/'], path)
  | _ => ([], name)

/-- The pieces of a text between slashes. -/
def segments : List Char → List (List Char)
  | [] => [[]]
  | c :: rest =>
    if c = '/' then [] :: segments rest
    else
      match segments rest with
      | [] => [[c]]
      | s :: ss => (c :: s) :: ss

/-- The text with the given pieces between slashes. -/
def joinSegments (pieces : List (List Char)) : List Char :=
  ['/'].intercalate pieces

/-- A segment that names something: neither empty nor `.` nor `..`. -/
def Ordinary (s : List Char) : Prop :=
  s ≠ [] ∧ s ≠ ['.'] ∧ s ≠ ['.', '.']

instance (s : List Char) : Decidable (Ordinary s) := by
  unfold Ordinary; infer_instance

/-- Walks along segments from a directory, given by the segments that lead to it, innermost first:
empty ones and `.` stay, `..` goes up and is refused at the root, any other one goes down. -/
def climb : List (List Char) → List (List Char) → Option (List (List Char))
  | done, [] => some done
  | done, s :: rest =>
    if s = [] ∨ s = ['.'] then climb done rest
    else if s = ['.', '.'] then
      match done with
      | [] => none
      | _ :: up => climb up rest
    else climb (s :: done) rest

/-- A walk that starts from ordinary segments ends in ordinary segments. -/
theorem climb_ordinary {done segs out : List (List Char)} (hdone : ∀ s ∈ done, Ordinary s)
    (h : climb done segs = some out) : ∀ s ∈ out, Ordinary s := by
  induction segs generalizing done with
  | nil => simp only [climb, Option.some.injEq] at h; exact h ▸ hdone
  | cons s segs ih =>
    unfold climb at h
    split at h
    · exact ih hdone h
    split at h
    · split at h
      · cases h
      · exact ih (fun s hs => hdone s (List.mem_cons_of_mem _ hs)) h
    · refine ih (fun t ht => ?_) h
      rcases List.mem_cons.mp ht with rfl | ht
      · simp_all [Ordinary]
      · exact hdone t ht

/-- The normal form of a path without a scheme. -/
def normalizePath? (path : List Char) : Option (List Char) :=
  (climb [] (segments path)).map fun done => joinSegments done.reverse

/-- The normal form of a name given by its characters. -/
def normalizeChars (name : List Char) : Except Defect (List Char) :=
  if '\\' ∈ name then .error .backslash
  else if '\x00' ∈ name then .error .nul
  else
    match normalizePath? (splitScheme name).2 with
    | some path => .ok ((splitScheme name).1 ++ path)
    | none => .error .aboveRoot

/-- The text up to and including its last slash. -/
def directory (path : List Char) : List Char :=
  (path.reverse.dropWhile (· ≠ '/')).reverse

/-- The name, before its normal form is taken, that `target` stands for in the template `base`. -/
def locate (base target : List Char) : List Char :=
  if (splitScheme target).1 ≠ [] then target
  else
    match target with
    | '/' :: rest => (splitScheme base).1 ++ rest
    | _ => (splitScheme base).1 ++ directory (splitScheme base).2 ++ target

/-- The normal form of a name. A defect comes with the name that has it. -/
def normalize (name : String) : Except (String × Defect) String :=
  match normalizeChars name.toList with
  | .ok cs => .ok (String.ofList cs)
  | .error d => .error (name, d)

/-- The normal form of a name as written in the template `base`. A defect comes with the name
before normalization. -/
def resolve (base target : String) : Except (String × Defect) String :=
  normalize (String.ofList (locate base.toList target.toList))

end Name

end Stencil
