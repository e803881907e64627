/-
# A cache of compiled filters and orders

The cache keeps what was compiled last under the schema, the kind and the text of a query.  A queue of
keys tells in which order the entries were inserted.  When the cache is full the entry that was
inserted first makes room, however often it was used; what is refused is not kept.  Without room for
any entry it is switched off and counts nothing.
-/
import Retrieval.Filter.Compile

namespace Retrieval

/-- What a text is compiled as. -/
inductive QueryKind where
  | filter
  | order
deriving DecidableEq

/-- What an entry of a cache is kept under. -/
structure CacheKey where
  schema : String
  kind : QueryKind
  text : String
deriving DecidableEq

/-- A compiled filter or order with the schema and the text that it was compiled from. -/
inductive CacheEntry where
  | filter (schema text : String) (predicate : Predicate)
  | order (schema text : String) (keys : List OrderKey)

namespace CacheEntry

/-- What an entry is kept under. -/
def key : CacheEntry → CacheKey
  | filter schema text _ => ⟨schema, .filter, text⟩
  | order schema text _ => ⟨schema, .order, text⟩

/-- The predicate of an entry for a filter. -/
def filter? (schema text : String) : CacheEntry → Option Predicate
  | filter s t p => if s = schema ∧ t = text then some p else none
  | order .. => none

/-- The keys of an entry for an order. -/
def order? (schema text : String) : CacheEntry → Option (List OrderKey)
  | order s t ks => if s = schema ∧ t = text then some ks else none
  | filter .. => none

end CacheEntry

/-- A cache of compiled filters and orders. -/
structure Cache where
  /-- The largest number of entries. -/
  capacity : Nat
  /-- The entries, each under a key of its own. -/
  entries : List CacheEntry
  /-- The keys of the entries in the order of their insertion, the oldest first. -/
  queue : List CacheKey
  /-- How often an entry was found. -/
  hits : Nat
  /-- How often none was found. -/
  misses : Nat
  /-- How many entries made room for others. -/
  evictions : Nat

/-- What is found in a cache or compiled, and the cache after that. -/
structure CacheAnswer (α : Type) where
  result : Except QueryError α
  cache : Cache
  /-- Whether the result was compiled and not found. -/
  fresh : Bool

namespace Cache

/-- An empty cache. -/
def empty (capacity : Nat) : Cache := ⟨capacity, [], [], 0, 0, 0⟩

/-- Drop all entries; the counts stay. -/
def clear (c : Cache) : Cache := { c with entries := [], queue := [] }

/-- Drop the entries of the oldest keys, as many as it takes to make room for one more. -/
def makeRoom (c : Cache) : Cache :=
  let surplus := c.queue.length + 1 - c.capacity
  let oldest := c.queue.take surplus
  { c with
    entries := c.entries.filter (·.key ∉ oldest)
    queue := c.queue.drop surplus
    evictions := c.evictions + oldest.length }

/-- Insert an entry after making room for it, unless there is one under its key. -/
def insert (c : Cache) (e : CacheEntry) : Cache :=
  if c.entries.any (·.key = e.key) then c
  else
    let c := c.makeRoom
    { c with entries := c.entries ++ [e], queue := c.queue ++ [e.key] }

/-- Find an entry or compile one. -/
def through {α : Type} (c : Cache) (find? : CacheEntry → Option α) (entry : α → CacheEntry)
    (compile : Unit → Except QueryError α) : CacheAnswer α :=
  if c.capacity = 0 then ⟨compile (), c, true⟩
  else
    match c.entries.findSome? find? with
    | some a => ⟨.ok a, { c with hits := c.hits + 1 }, false⟩
    | none =>
      let missed := { c with misses := c.misses + 1 }
      match compile () with
      | .ok a => ⟨.ok a, missed.insert (entry a), true⟩
      | .error e => ⟨.error e, missed, true⟩

/-- The predicate of a filter. -/
def filter (c : Cache) (g : Graph) (schema text : String) : CacheAnswer Predicate :=
  c.through (CacheEntry.filter? schema text) (CacheEntry.filter schema text)
    fun _ => g.compileFilter schema text

/-- The keys of an order. -/
def order (c : Cache) (g : Graph) (schema text : String) : CacheAnswer (List OrderKey) :=
  c.through (CacheEntry.order? schema text) (CacheEntry.order schema text)
    fun _ => g.compileOrder schema text

end Cache

end Retrieval
