import Stencil.Name
import Stencil.Template

/-!
# The store of templates

A *loader* finds the source of a template by its normalized name. The *store* puts the rest on top
of it: it normalizes names, decodes and parses sources, and remembers what it has loaded by name,
encoding and way of reading. Only templates that were found are remembered.

## Main definitions

* `Loader` finds sources, `Loader.put` adds one.
* `Request` is what a template is asked for by, in normal form.
* `load` answers a request from a loader alone.
* `Store.get` answers it from the memory of a store where possible.

## Main results

* `Store.answer_of_remembered`: a remembered template is the answer.
* `Store.answer_loader`: answering a request does not touch the sources.
-/

namespace Stencil

/-- A source: a label for reports, and its bytes or the reason why they cannot be read. -/
structure Source where
  label : String
  content : Except String (List UInt8)

/-- Finds sources by normalized name. -/
structure Loader where
  find : String → Option Source

namespace Loader

/-- The loader that finds nothing. -/
def empty : Loader := ⟨fun _ => none⟩

/-- The label of a source that is held in memory. -/
def memoryLabel (name : String) : String := "dict:" ++ name

/-- Adds a source held in memory, or replaces the one of that name. -/
def put (l : Loader) (name : String) (content : Except String (List UInt8)) : Loader :=
  ⟨fun n => if n = name then some ⟨memoryLabel name, content⟩ else l.find n⟩

@[simp] theorem find_put_self (l : Loader) (name : String)
    (content : Except String (List UInt8)) :
    (l.put name content).find name = some ⟨memoryLabel name, content⟩ := by
  simp [put]

theorem find_put_of_ne (l : Loader) {name other : String}
    (content : Except String (List UInt8)) (h : other ≠ name) :
    (l.put name content).find other = l.find other := by
  simp [put, h]

end Loader

/-- What a template is asked for by: its normalized name, its encoding and whether it is parsed. -/
structure Request where
  name : String
  encoding : String
  parse : Bool
  deriving Repr, DecidableEq

namespace Request

/-- The request for a name as written. No encoding, or an empty one, stands for the default. -/
def ofName (defaultEncoding name : String) (encoding : Option String) (parse : Bool) :
    Except Failure Request :=
  match Name.normalize name with
  | .error (name, defect) => .error (.run (.malformedName name defect.describe) none)
  | .ok name =>
    let encoding :=
      match encoding with
      | some e => if e = "" then defaultEncoding else e
      | none => defaultEncoding
    .ok ⟨name, encoding, parse⟩

end Request

/-- The template with the given source text. -/
def templateOf (r : Request) (label text : String) : Except Failure Template :=
  if r.parse then
    match Template.ofText text r.name label (some r.encoding) with
    | .error (.parse e) => .error (.load ⟨r.name, .unparsable e⟩)
    | result => result
  else .ok (Template.raw text r.name label (some r.encoding))

/-- The template of a source. -/
def loadSource (r : Request) (s : Source) : Except Failure Template :=
  match s.content with
  | .error detail => .error (.load ⟨r.name, .unreadable detail⟩)
  | .ok bytes =>
    match decodeText r.encoding bytes with
    | .error .nulInName => .error .nulInCharset
    | .error .unknown => .error (.load ⟨r.name, .unknownEncoding r.encoding⟩)
    | .error (.undecodable e) => .error (.load ⟨r.name, .undecodable r.encoding e⟩)
    | .ok text => templateOf r s.label text

/-- Answers a request from a loader: the template, nothing if it is missing, or a failure. -/
def load (l : Loader) (r : Request) : Except Failure (Option Template) :=
  match l.find r.name with
  | none => .ok none
  | some s => (loadSource r s).map some

/-- A missing template is a failure, unless it may be missing. -/
def missing (r : Request) (ignoreMissing : Bool) : Except Failure (Option Template) :=
  if ignoreMissing then .ok none else .error (.load ⟨r.name, .notFound ""⟩)

/-- A loader with the templates already loaded from it, the oldest first. -/
structure Store where
  loader : Loader
  /-- The encoding of requests that name none. -/
  defaultEncoding : String
  cache : List (Request × Template)

namespace Store

/-- The store that remembers nothing yet. -/
def new (loader : Loader) (defaultEncoding : String) : Store :=
  ⟨loader, defaultEncoding, []⟩

/-- The template remembered for a request. -/
def remembered? (s : Store) (r : Request) : Option Template :=
  s.cache.lookup r

/-- Remembers a template. -/
def remember (s : Store) (r : Request) (t : Template) : Store :=
  { s with cache := s.cache ++ [(r, t)] }

/-- Forgets every template. -/
def clear (s : Store) : Store :=
  { s with cache := [] }

/-- Changes a source without forgetting templates loaded before. -/
def put (s : Store) (name : String) (content : Except String (List UInt8)) : Store :=
  { s with loader := s.loader.put name content }

/-- Answers a request, from memory if it was answered before. -/
def answer (s : Store) (r : Request) (ignoreMissing : Bool) :
    Except Failure (Option Template) × Store :=
  match s.remembered? r with
  | some t => (.ok (some t), s)
  | none =>
    match load s.loader r with
    | .error e => (.error e, s)
    | .ok none => (missing r ignoreMissing, s)
    | .ok (some t) => (.ok (some t), s.remember r t)

/-- The template of a name: nothing if it is missing and may be, or a failure. -/
def get (s : Store) (name : String) (encoding : Option String) (parse ignoreMissing : Bool) :
    Except Failure (Option Template) × Store :=
  match Request.ofName s.defaultEncoding name encoding parse with
  | .error e => (.error e, s)
  | .ok r => s.answer r ignoreMissing

/-- A remembered template is the answer, and nothing changes. -/
theorem answer_of_remembered {s : Store} {r : Request} {t : Template} (h : s.remembered? r = some t)
    (ignoreMissing : Bool) : s.answer r ignoreMissing = (.ok (some t), s) := by
  simp [answer, h]

/-- The loader, the default encoding and all that is remembered stay; an answer can only add. -/
theorem answer_loader (s : Store) (r : Request) (ignoreMissing : Bool) :
    (s.answer r ignoreMissing).2.loader = s.loader := by
  unfold answer
  split
  · rfl
  · split <;> rfl

end Store

end Stencil
