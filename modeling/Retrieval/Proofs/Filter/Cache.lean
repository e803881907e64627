/-
# Caches answer as compilation does

Every entry of a cache holds what its schema and its text are compiled to.  Insertion, eviction and
clearing keep this up, so an entry that is found is no other answer than a fresh compilation, and
what is refused is refused again.
-/
import Mathlib.Tactic.Lemma
import Retrieval.Filter.Cache

namespace Retrieval

variable {g : Graph}

/-- Whether an entry holds what it would be compiled to. -/
def CacheEntry.IsCompiled (g : Graph) : CacheEntry → Prop
  | filter schema text p => g.compileFilter schema text = .ok p
  | order schema text keys => g.compileOrder schema text = .ok keys

namespace CacheEntry

variable {schema text : String} {e : CacheEntry}

lemma compileFilter_of_filter? (h : e.IsCompiled g) {p : Predicate}
    (hp : e.filter? schema text = some p) : g.compileFilter schema text = .ok p := by
  cases e with
  | filter s t q =>
    rw [filter?] at hp
    split at hp
    · next hkey =>
      obtain ⟨rfl, rfl⟩ := hkey
      cases hp
      exact h
    · cases hp
  | order => cases hp

lemma compileOrder_of_order? (h : e.IsCompiled g) {keys : List OrderKey}
    (hkeys : e.order? schema text = some keys) : g.compileOrder schema text = .ok keys := by
  cases e with
  | filter => cases hkeys
  | order s t ks =>
    rw [order?] at hkeys
    split at hkeys
    · next hkey =>
      obtain ⟨rfl, rfl⟩ := hkey
      cases hkeys
      exact h
    · cases hkeys

end CacheEntry

namespace Cache

/-- Whether a cache of a graph holds no other entries than compiled ones. -/
def Sound (g : Graph) (c : Cache) : Prop := ∀ e ∈ c.entries, e.IsCompiled g

/-- What a cache answers and what becomes of it, where `r` is compiled. -/
structure Answers {α : Type} (g : Graph) (a : CacheAnswer α) (r : Except QueryError α) : Prop where
  result_eq : a.result = r
  sound : a.cache.Sound g

variable {c : Cache}

lemma sound_empty (g : Graph) (capacity : Nat) : (empty capacity).Sound g := by
  intro e he
  cases he

lemma sound_clear (g : Graph) (c : Cache) : c.clear.Sound g := by
  intro e he
  cases he

lemma Sound.insert (hc : c.Sound g) {e : CacheEntry} (he : e.IsCompiled g) :
    (c.insert e).Sound g := by
  rw [Cache.insert]
  split
  · exact hc
  · intro e' he'
    rcases List.mem_append.1 he' with hold | hnew
    · exact hc e' (List.mem_filter.1 hold).1
    · rwa [List.mem_singleton.1 hnew]

/-- Whether an entry is found or not, the answer is what is compiled. -/
lemma Sound.through {α : Type} (hc : c.Sound g) {find? : CacheEntry → Option α}
    {entry : α → CacheEntry} {compile : Unit → Except QueryError α}
    (hfind : ∀ e a, e.IsCompiled g → find? e = some a → compile () = .ok a)
    (hentry : ∀ a, compile () = .ok a → (entry a).IsCompiled g) :
    Answers g (c.through find? entry compile) (compile ()) := by
  rw [Cache.through]
  split
  · exact ⟨rfl, hc⟩
  · split
    · next a ha =>
      obtain ⟨e, he, hfound⟩ := List.exists_of_findSome?_eq_some ha
      exact ⟨(hfind e a (hc e he) hfound).symm, hc⟩
    · -- nothing is found, and only what is accepted is kept
      split
      · next a ha =>
        exact ⟨ha.symm, Sound.insert (c := { c with misses := c.misses + 1 }) hc (hentry a ha)⟩
      · next e he => exact ⟨he.symm, hc⟩

lemma Sound.filter (hc : c.Sound g) (schema text : String) :
    Answers g (c.filter g schema text) (g.compileFilter schema text) :=
  hc.through (fun _ _ he => CacheEntry.compileFilter_of_filter? he) fun _ ha => ha

lemma Sound.order (hc : c.Sound g) (schema text : String) :
    Answers g (c.order g schema text) (g.compileOrder schema text) :=
  hc.through (fun _ _ he => CacheEntry.compileOrder_of_order? he) fun _ ha => ha

/-! ### Calls one after the other -/

/-- What a cache may be called for. -/
inductive Call where
  | filter (schema text : String)
  | order (schema text : String)
  | clear

/-- What a call comes to. -/
inductive Reply where
  | filter (result : Except QueryError Predicate)
  | order (result : Except QueryError (List OrderKey))
  | cleared

/-- The reply to a call, and the cache after it. -/
def call (g : Graph) (c : Cache) : Call → Reply × Cache
  | .filter schema text =>
    let answer := c.filter g schema text
    (.filter answer.result, answer.cache)
  | .order schema text =>
    let answer := c.order g schema text
    (.order answer.result, answer.cache)
  | .clear => (.cleared, c.clear)

/-- The replies to calls one after the other. -/
def replies (g : Graph) (c : Cache) : List Call → List Reply
  | [] => []
  | call :: rest => (c.call g call).1 :: (c.call g call).2.replies g rest

/-- What a call comes to without a cache. -/
def Call.compiled (g : Graph) : Call → Reply
  | .filter schema text => .filter (g.compileFilter schema text)
  | .order schema text => .order (g.compileOrder schema text)
  | .clear => .cleared

lemma Sound.call (hc : c.Sound g) (call : Call) :
    (c.call g call).1 = call.compiled g ∧ (c.call g call).2.Sound g := by
  cases call with
  | filter schema text =>
    obtain ⟨hresult, hsound⟩ := hc.filter schema text
    exact ⟨congrArg Reply.filter hresult, hsound⟩
  | order schema text =>
    obtain ⟨hresult, hsound⟩ := hc.order schema text
    exact ⟨congrArg Reply.order hresult, hsound⟩
  | clear => exact ⟨rfl, sound_clear g c⟩

/-- A cache replies to every call as if nothing had been kept. -/
lemma Sound.replies (hc : c.Sound g) (calls : List Call) :
    c.replies g calls = calls.map (Call.compiled g) := by
  induction calls generalizing c with
  | nil => rfl
  | cons call rest ih =>
    obtain ⟨hreply, hsound⟩ := hc.call call
    rw [Cache.replies, List.map_cons, ← hreply, ← ih hsound]

end Cache

end Retrieval
