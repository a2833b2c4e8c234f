import TenantStore.Document.Matching
import TenantStore.Repository.Backend

/-!
# Collections of documents

A collection holds documents in the order in which they were inserted, no two of them with the same
value in the key field at the time of an insert. It keeps the queries that it received, and it can
be made to fail, so that what repositories do with it can be told from the outside.

An access is a function from the collection to an answer and the collection afterwards.
-/

namespace TenantStore

open Document (matchesQuery)

/-- A collection. -/
structure Collection where
  /-- The name of the key field. -/
  key : String
  /-- The documents, oldest first. -/
  documents : List Document
  /-- The queries received, oldest first. -/
  received : List Document
  /-- The message of the failure that every access ends in, if there is one. -/
  failure : Option String
  deriving DecidableEq, Repr

namespace SortField

/-- The order of two documents by one field. -/
def order (f : SortField) (a b : Document) : Ordering :=
  let o := Json.order (Document.field a f.field) (Document.field b f.field)
  match f.direction with
  | .ascending => o
  | .descending => o.swap

/-- The order of two documents by several fields: the first that tells them apart counts. -/
def listOrder : List SortField → Document → Document → Ordering
  | [], _, _ => .eq
  | f :: fs, a, b => (f.order a b).then (listOrder fs a b)

end SortField

namespace Collection

variable [SearchEngine]

/-- A new collection. -/
def empty (key : String) : Collection :=
  ⟨key, [], [], none⟩

/-- The collection with failing accesses. -/
def failWith (c : Collection) (message : String) : Collection :=
  { c with failure := some message }

/-- The collection after it received a query. -/
def receive (c : Collection) (query : Document) : Collection :=
  { c with received := c.received ++ [query] }

/-- The documents that a query selects. -/
def select (c : Collection) (query : Document) : List Document :=
  c.documents.filter (matchesQuery · query)

/-- An access to the collection, if it does not fail. -/
def guarded {α : Type} (act : Collection → Except StoreError α × Collection) :
    Access Collection α :=
  fun c =>
    match c.failure with
    | some message => (.error (.backend message), c)
    | none => act c

/-- An access by a query. -/
def answer {α : Type} (query : Document) (act : Collection → α × Collection) :
    Access Collection α :=
  fun c => guarded (fun c => let (a, c) := act c; (.ok a, c)) (c.receive query)

/-- A document is there with the same key. -/
def hasKeyOf (c : Collection) (d : Document) : Bool :=
  match Members.get? d c.key with
  | some v =>
    c.documents.any fun stored =>
      match Members.get? stored c.key with
      | some w => Json.same w v
      | none => false
  | none => false

/-- Stores a document, unless one with its key is there. -/
def insertOne (d : Document) : Access Collection Unit :=
  guarded fun c =>
    if c.hasKeyOf d then (.error (.backend "duplicate key"), c)
    else (.ok (), { c with documents := c.documents ++ [d] })

/-- Replaces the first document that passes a test, and says whether there is one. -/
def replaceFirst (test : Document → Bool) (new : Document) : List Document → Bool × List Document
  | [] => (false, [])
  | d :: ds =>
    if test d then (true, new :: ds)
    else
      let (found, ds) := replaceFirst test new ds
      (found, d :: ds)

/-- Replaces the first document that a query selects, and counts it. -/
def updateOne (query new : Document) : Access Collection Nat :=
  answer query fun c =>
    let (found, documents) := replaceFirst (matchesQuery · query) new c.documents
    (if found then 1 else 0, { c with documents })

/-- Deletes the documents that a query selects, and counts them. -/
def deleteMany (query : Document) : Access Collection Nat :=
  answer query fun c =>
    ((c.select query).length, { c with documents := c.documents.filter (!matchesQuery · query) })

/-- The first document that a query selects. -/
def findOne (query : Document) : Access Collection (Option Document) :=
  answer query fun c => (c.documents.find? (matchesQuery · query), c)

/-- The documents that a query selects, as a window shows them. -/
def find (query : Document) (w : Window) : Access Collection (List Document) :=
  answer query fun c =>
    (w.cut ((c.select query).mergeSort fun a b => (SortField.listOrder w.sort a b).isLE), c)

/-- The number of documents that a query selects. -/
def count (query : Document) : Access Collection Nat :=
  answer query fun c => ((c.select query).length, c)

end Collection
end TenantStore
