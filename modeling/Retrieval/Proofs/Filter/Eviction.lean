/-
# Caches keep what was inserted last

A cache finds a text if and only if its key is among the latest insertions since the cache was cleared,
as many of them as there is room for.  Finding an entry does not make it younger, and what is refused
is not inserted.  The entries and the queue of their keys stay in step, and every call and every
insertion is counted once.
-/
import Mathlib.Data.List.Nodup
import Retrieval.Proofs.Filter.Cache

namespace Retrieval

/-- In a list without repetition the members that are not among the first ones are those behind. -/
lemma filter_notMem_take {α : Type} [DecidableEq α] {as : List α} (h : as.Nodup) (n : Nat) :
    as.filter (· ∉ as.take n) = as.drop n := by
  have hbehind : ∀ a ∈ as.drop n, a ∉ as.take n :=
    fun a ha hfirst => List.disjoint_take_drop h (Nat.le_refl n) hfirst ha
  calc as.filter (· ∉ as.take n)
      = (as.take n).filter (· ∉ as.take n) ++ (as.drop n).filter (· ∉ as.take n) := by
        rw [← List.filter_append, List.take_append_drop]
    _ = [] ++ as.drop n := by
        congr 1
        · exact List.filter_eq_nil_iff.2 fun a ha => by simpa using ha
        · exact List.filter_eq_self.2 fun a ha => by simpa using hbehind a ha
    _ = as.drop n := List.nil_append _

namespace CacheEntry

variable {schema text : String} {e : CacheEntry}

lemma filter?_isSome_iff : (e.filter? schema text).isSome ↔ e.key = ⟨schema, .filter, text⟩ := by
  cases e <;> simp [filter?, key]

lemma order?_isSome_iff : (e.order? schema text).isSome ↔ e.key = ⟨schema, .order, text⟩ := by
  cases e <;> simp [order?, key]

end CacheEntry

namespace Cache

variable {g : Graph} {c : Cache} {key : CacheKey}

/-! ### What a call does -/

/-- Whether there is an entry under a key. -/
def Has (c : Cache) (key : CacheKey) : Prop := key ∈ c.entries.map CacheEntry.key

/-- What becomes of a cache that is asked for a key, and whether there is an answer. -/
inductive Asked (c : Cache) (key : CacheKey) : Bool → Cache → Prop where
  /-- The entry is found. -/
  | found : c.Has key → Asked c key true { c with hits := c.hits + 1 }
  /-- There is none, but what is compiled is inserted. -/
  | inserted {e : CacheEntry} : ¬ c.Has key → e.key = key →
    Asked c key true ({ c with misses := c.misses + 1 }.insert e)
  /-- There is none, and compilation is refused. -/
  | refused : ¬ c.Has key → Asked c key false { c with misses := c.misses + 1 }

lemma asked_through {α : Type} (hroom : 0 < c.capacity) {find? : CacheEntry → Option α}
    {entry : α → CacheEntry} {compile : Unit → Except QueryError α}
    (hfind : ∀ e, (find? e).isSome ↔ e.key = key) (hentry : ∀ a, (entry a).key = key) :
    c.Asked key (c.through find? entry compile).result.isOk
      (c.through find? entry compile).cache := by
  have hhas : c.Has key ↔ (c.entries.findSome? find?).isSome := by
    simp [Has, List.findSome?_isSome_iff, hfind]
  rw [through, if_neg (Nat.pos_iff_ne_zero.1 hroom)]
  split
  · next a ha => exact .found (hhas.2 (by simp [ha]))
  · next hnone =>
    have hmiss : ¬ c.Has key := by simp [hhas, hnone]
    split
    · next a _ => exact .inserted hmiss (hentry a)
    · exact .refused hmiss

/-- The key that a call asks for. -/
def Call.key? : Call → Option CacheKey
  | .filter schema text => some ⟨schema, .filter, text⟩
  | .order schema text => some ⟨schema, .order, text⟩
  | .clear => none

/-- Whether a reply is no refusal. -/
def Reply.isAccepted : Reply → Bool
  | .filter result => result.isOk
  | .order result => result.isOk
  | .cleared => true

lemma asked_call (hroom : 0 < c.capacity) {call : Call} (hkey : call.key? = some key) :
    c.Asked key (c.call g call).1.isAccepted (c.call g call).2 := by
  cases call with
  | filter schema text =>
    cases hkey
    exact asked_through hroom (fun _ => CacheEntry.filter?_isSome_iff) fun _ => rfl
  | order schema text =>
    cases hkey
    exact asked_through hroom (fun _ => CacheEntry.order?_isSome_iff) fun _ => rfl
  | clear => cases hkey

/-! ### Hits and misses -/

/-- Whether a call is counted as a hit. -/
def IsHit (g : Graph) (c : Cache) (call : Call) : Prop := (c.call g call).2.hits = c.hits + 1

/-- Whether a call is counted as a miss. -/
def IsMiss (g : Graph) (c : Cache) (call : Call) : Prop :=
  (c.call g call).2.misses = c.misses + 1

instance (g : Graph) (c : Cache) (call : Call) : Decidable (c.IsMiss g call) :=
  inferInstanceAs (Decidable (_ = _))

@[simp] lemma hits_insert (c : Cache) (e : CacheEntry) : (c.insert e).hits = c.hits := by
  rw [Cache.insert]
  split <;> rfl

@[simp] lemma misses_insert (c : Cache) (e : CacheEntry) : (c.insert e).misses = c.misses := by
  rw [Cache.insert]
  split <;> rfl

@[simp] lemma capacity_insert (c : Cache) (e : CacheEntry) :
    (c.insert e).capacity = c.capacity := by
  rw [Cache.insert]
  split <;> rfl

namespace Asked

variable {answered : Bool} {c' : Cache}

lemma hits_iff (h : c.Asked key answered c') : c'.hits = c.hits + 1 ↔ c.Has key := by
  cases h with
  | found hhas => simp [hhas]
  | inserted hmiss => simp [hmiss]
  | refused hmiss => simp [hmiss]

lemma misses_iff (h : c.Asked key answered c') : c'.misses = c.misses + 1 ↔ ¬ c.Has key := by
  cases h with
  | found hhas => simp [hhas]
  | inserted hmiss => simp [hmiss]
  | refused hmiss => simp [hmiss]

lemma capacity_eq (h : c.Asked key answered c') : c'.capacity = c.capacity := by
  cases h with
  | found | refused => rfl
  | inserted => exact capacity_insert _ _

end Asked

/-- What calls did to a cache, told from its replies and counts. -/
structure Ledger where
  /-- The keys that were inserted since the cache was cleared, the last one first. -/
  inserted : List CacheKey
  /-- How many misses came to a result, and so to an insertion. -/
  kept : Nat
  /-- How many entries were dropped by clearing. -/
  cleared : Nat

/-- What was done after one more call. -/
def Ledger.after (g : Graph) (c : Cache) (call : Call) (l : Ledger) : Ledger :=
  match call.key? with
  | none => { l with inserted := [], cleared := l.cleared + c.entries.length }
  | some key =>
    if c.IsMiss g call ∧ (c.call g call).1.isAccepted then
      { l with inserted := key :: l.inserted, kept := l.kept + 1 }
    else l

/-- A cache after calls one after the other, with what they did. -/
def recorded (g : Graph) (c : Cache) (l : Ledger) : List Call → Cache × Ledger
  | [] => (c, l)
  | call :: rest => (c.call g call).2.recorded g (l.after g c call) rest

/-- What holds of a cache after calls, `asked` of which asked for a key. -/
structure KeepsLatest (c : Cache) (l : Ledger) (asked : Nat) : Prop where
  keys_eq : c.entries.map CacheEntry.key = c.queue
  /-- The queue holds the latest insertions, and nothing besides. -/
  queue_eq : c.queue = (l.inserted.take c.capacity).reverse
  nodup : c.queue.Nodup
  asked_eq : c.hits + c.misses = asked
  kept_eq : l.kept = c.evictions + c.queue.length + l.cleared

variable {l : Ledger} {asked : Nat}

lemma keepsLatest_empty (capacity : Nat) : (empty capacity).KeepsLatest ⟨[], 0, 0⟩ 0 :=
  ⟨rfl, by simp [empty], List.nodup_nil, rfl, rfl⟩

namespace KeepsLatest

lemma has_iff (h : c.KeepsLatest l asked) : c.Has key ↔ key ∈ l.inserted.take c.capacity := by
  rw [Has, h.keys_eq, h.queue_eq, List.mem_reverse]

lemma clear (h : c.KeepsLatest l asked) :
    c.clear.KeepsLatest { l with inserted := [], cleared := l.cleared + c.entries.length } asked := by
  refine ⟨rfl, by simp [Cache.clear], List.nodup_nil, h.asked_eq, ?_⟩
  have hlength : c.entries.length = c.queue.length := by rw [← h.keys_eq, List.length_map]
  have hkept := h.kept_eq
  simp only [Cache.clear, List.length_nil, hlength]
  omega

lemma hit (h : c.KeepsLatest l asked) :
    ({ c with hits := c.hits + 1 } : Cache).KeepsLatest l (asked + 1) := by
  refine { h with asked_eq := ?_ }
  have hasked := h.asked_eq
  simp only
  omega

lemma miss (h : c.KeepsLatest l asked) :
    ({ c with misses := c.misses + 1 } : Cache).KeepsLatest l (asked + 1) := by
  refine { h with asked_eq := ?_ }
  have hasked := h.asked_eq
  simp only
  omega

end KeepsLatest

/-- Making room drops the same keys from the entries as from their queue. -/
lemma keys_makeRoom (hkeys : c.entries.map CacheEntry.key = c.queue) (hnodup : c.queue.Nodup) :
    c.makeRoom.entries.map CacheEntry.key = c.makeRoom.queue := by
  rw [makeRoom]
  show _ = c.queue.drop (c.queue.length + 1 - c.capacity)
  rw [← filter_notMem_take hnodup, ← hkeys, List.filter_map]
  rfl

lemma evictions_makeRoom :
    c.makeRoom.evictions + c.makeRoom.queue.length = c.evictions + c.queue.length := by
  simp only [makeRoom, List.length_take, List.length_drop]
  omega

/-- Where the queue holds the latest insertions, one more makes it hold those that are the latest
then. -/
lemma queue_makeRoom {keys : List CacheKey} (hroom : 0 < c.capacity)
    (hqueue : c.queue = (keys.take c.capacity).reverse) (key : CacheKey) :
    c.makeRoom.queue ++ [key] = ((key :: keys).take c.capacity).reverse := by
  obtain ⟨n, hn⟩ : ∃ n, c.capacity = n + 1 := ⟨c.capacity - 1, by omega⟩
  have hlatest : (keys.take (n + 1)).reverse.drop ((keys.take (n + 1)).length + 1 - (n + 1)) =
      (keys.take n).reverse := by
    rw [List.drop_reverse, List.take_take, List.reverse_inj, List.take_eq_take_iff, List.length_take]
    omega
  rw [makeRoom]
  simp only [hqueue, hn, List.length_reverse, hlatest, List.take_succ_cons, List.reverse_cons]

/-- An insertion puts the new key behind the queue, from which the oldest is gone if it was full. -/
lemma KeepsLatest.insert (h : c.KeepsLatest l asked) (hroom : 0 < c.capacity) {e : CacheEntry}
    (hmiss : ¬ c.Has e.key) :
    (c.insert e).KeepsLatest { l with inserted := e.key :: l.inserted, kept := l.kept + 1 } asked := by
  have hfresh : c.entries.any (·.key = e.key) = false := by simpa [Has] using hmiss
  have hqueue := queue_makeRoom hroom h.queue_eq e.key
  rw [Cache.insert, hfresh]
  constructor
  · simp [keys_makeRoom h.keys_eq h.nodup]
  · exact hqueue
  · have hnew : e.key ∉ c.makeRoom.queue := by
      intro hmem
      rw [Has, h.keys_eq] at hmiss
      exact hmiss (List.mem_of_mem_drop hmem)
    have hold : c.makeRoom.queue.Nodup := h.nodup.sublist (List.drop_sublist _ _)
    simpa using hold.concat hnew
  · exact h.asked_eq
  · have hcount := c.evictions_makeRoom
    have hkept := h.kept_eq
    simp only [Bool.false_eq_true, if_false, List.length_append, List.length_singleton]
    omega

lemma capacity_call (hroom : 0 < c.capacity) (call : Call) :
    (c.call g call).2.capacity = c.capacity := by
  cases hkey : call.key? with
  | none =>
    cases call with
    | clear => rfl
    | filter | order => cases hkey
  | some key => exact (asked_call hroom hkey).capacity_eq

lemma KeepsLatest.call (h : c.KeepsLatest l asked) (hroom : 0 < c.capacity) (call : Call) :
    (c.call g call).2.KeepsLatest (l.after g c call) (asked + call.key?.toList.length) := by
  cases hkey : call.key? with
  | none =>
    rw [Ledger.after, hkey]
    cases call with
    | clear => exact h.clear
    | filter | order => cases hkey
  | some key =>
    have hasked := asked_call (g := g) hroom hkey
    have hmiss : c.IsMiss g call ↔ ¬ c.Has key := hasked.misses_iff
    simp only [Ledger.after, hkey]
    generalize (c.call g call).1.isAccepted = answered, (c.call g call).2 = c' at hasked ⊢
    cases hasked with
    | found hhas =>
      rw [if_neg (by simp [hmiss, hhas])]
      exact h.hit
    | inserted hnone he =>
      subst he
      rw [if_pos ⟨hmiss.2 hnone, rfl⟩]
      exact h.miss.insert hroom hnone
    | refused hnone =>
      rw [if_neg (by simp)]
      exact h.miss

lemma KeepsLatest.recorded (h : c.KeepsLatest l asked) (hroom : 0 < c.capacity)
    (calls : List Call) :
    (c.recorded g l calls).1.KeepsLatest (c.recorded g l calls).2
      (asked + calls.countP (·.key?.isSome)) := by
  induction calls generalizing c l asked with
  | nil => simpa [Cache.recorded] using h
  | cons call rest ih =>
    have hrest := ih (h.call (g := g) hroom call) (by rwa [capacity_call hroom])
    rw [Cache.recorded, List.countP_cons]
    cases hkey : call.key? <;> simpa [hkey, Nat.add_assoc, Nat.add_comm 1] using hrest

/-- A cache without room stays as it is, and counts nothing. -/
lemma call_empty_zero (call : Call) : ((empty 0).call g call).2 = empty 0 := by
  cases call with
  | filter | order => simp [Cache.call, Cache.filter, Cache.order, through, empty]
  | clear => rfl

lemma recorded_empty_zero (l : Ledger) (calls : List Call) :
    ((empty 0).recorded g l calls).1 = empty 0 := by
  induction calls generalizing l with
  | nil => rfl
  | cons call rest ih => rw [Cache.recorded, call_empty_zero, ih]

lemma capacity_recorded (hroom : 0 < c.capacity) (l : Ledger) (calls : List Call) :
    (c.recorded g l calls).1.capacity = c.capacity := by
  induction calls generalizing c l with
  | nil => rfl
  | cons call rest ih =>
    have hcall := capacity_call (g := g) hroom call
    rw [Cache.recorded, ih (by rwa [hcall]), hcall]

end Cache

/-- **A cache keeps what was inserted last.**  Take a cache with room for some entries that was called
for filters and orders of a graph, and cleared, in any way from when it was empty.  The next call for
a text is a hit if and only if its key is among the latest keys that were inserted since the cache was
cleared, as many of them as there is room for; else it is a miss, and misses that come to a result are
what inserts keys.  The entries and the queue hold the same keys, which are those latest ones, each
once.  Every call is counted as a hit or as a miss, and every insertion is evicted, dropped by
clearing or still there.  A cache without room stays empty and counts nothing. -/
theorem cache_keeps_latest (g : Graph) (capacity : Nat) (calls : List Cache.Call) :
    let c := ((Cache.empty capacity).recorded g ⟨[], 0, 0⟩ calls).1
    let l := ((Cache.empty capacity).recorded g ⟨[], 0, 0⟩ calls).2
    (0 < capacity →
      (∀ call key, call.key? = some key →
        (c.IsHit g call ↔ key ∈ l.inserted.take capacity) ∧
        (c.IsMiss g call ↔ key ∉ l.inserted.take capacity)) ∧
      c.entries.map CacheEntry.key = c.queue ∧
      c.queue = (l.inserted.take capacity).reverse ∧
      c.queue.Nodup ∧ c.queue.length ≤ capacity ∧
      c.hits + c.misses = calls.countP (·.key?.isSome) ∧
      l.kept = c.evictions + c.entries.length + l.cleared) ∧
    (capacity = 0 → c = Cache.empty 0) := by
  intro c l
  constructor
  · intro hroom
    have hc : c.KeepsLatest l (0 + calls.countP (·.key?.isSome)) :=
      (Cache.keepsLatest_empty capacity).recorded hroom calls
    have hcapacity : c.capacity = capacity := Cache.capacity_recorded hroom _ calls
    have hqueue := hc.queue_eq
    rw [hcapacity] at hqueue
    refine ⟨fun call key hkey => ?_, hc.keys_eq, hqueue, hc.nodup, ?_, ?_, ?_⟩
    · have hasked := Cache.asked_call (g := g) (hcapacity.symm ▸ hroom) hkey
      rw [← hcapacity, ← hc.has_iff]
      exact ⟨hasked.hits_iff, hasked.misses_iff⟩
    · rw [hqueue, List.length_reverse]
      exact List.length_take_le _ _
    · rw [hc.asked_eq, Nat.zero_add]
    · rw [hc.kept_eq, ← hc.keys_eq, List.length_map]
  · intro hcapacity
    subst hcapacity
    exact Cache.recorded_empty_zero _ calls

/-- A graph of one schema with a number. -/
def noteGraph : Graph := ⟨1, #v[⟨"Note", none, "id", [⟨"id", .scalar .int⟩]⟩]⟩

/-- The entry that was used last makes room, since it was inserted first. -/
example :
    ((Cache.empty 2).recorded noteGraph ⟨[], 0, 0⟩
      [.filter "Note" "id.eq.1", .filter "Note" "id.eq.2", .filter "Note" "id.eq.1",
        .order "Note" "id"]).1.queue.map CacheKey.text = ["id.eq.2", "id"] := by decide +kernel

end Retrieval
