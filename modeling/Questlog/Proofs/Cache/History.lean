import Questlog.Proofs.Cache.Recency

namespace Questlog

/-- What a cache is asked to do. -/
inductive CacheCall (α : Type) where
  | get (key : String)
  | insert (key : String) (value : α)
  | contains (key : String)
  | clear

/-- What a call gives back. -/
inductive CacheReply (α : Type) where
  | found (value : Option α)
  | cached (value : α)
  | present (answer : Bool)
  | cleared
deriving DecidableEq

variable {α : Type}

/-- The reply of a cache to a call, and the cache afterwards. -/
def Cache.serve (cache : Cache α) : CacheCall α → CacheReply α × Cache α
  | .get key => (.found (cache.lookup key).1, (cache.lookup key).2)
  | .insert key value => (.cached (cache.insert key value).1, (cache.insert key value).2)
  | .contains key => (.present (cache.contains key), cache)
  | .clear => (.cleared, cache.clear)

/-- The reply of a list of entries to a call, and the list afterwards. -/
def Recent.serve (capacity : Option Nat) (entries : List (String × α)) :
    CacheCall α → CacheReply α × List (String × α)
  | .get key => (.found (lookup entries key).1, (lookup entries key).2)
  | .insert key value =>
    (.cached (insert capacity entries key value).1, (insert capacity entries key value).2)
  | .contains key => (.present (entries.any (·.1 = key)), entries)
  | .clear => (.cleared, [])

/-- The replies to calls that are served one after the other, and the state at the end. -/
def serveAll {σ κ ρ : Type} (serve : σ → κ → ρ × σ) (state : σ) : List κ → List ρ × σ
  | [] => ([], state)
  | call :: calls =>
    let (reply, next) := serve state call
    let (replies, last) := serveAll serve next calls
    (reply :: replies, last)

namespace Cache

/-- Forgetting the oldest value as long as there are `n` or more comes to an end, with the second
cache. -/
inductive EvictsTo (n : Nat) : Cache α → Cache α → Prop
  | enough {cache : Cache α} : cache.size < n → EvictsTo n cache cache
  | evict {cache last : Cache α} : n ≤ cache.size → EvictsTo n cache.evictOldest last →
    EvictsTo n cache last

/-- A lookup does not change the capacity. -/
theorem capacity_lookup (cache : Cache α) (key : String) :
    (cache.lookup key).2.capacity = cache.capacity := by
  unfold lookup
  split
  · exact (promote_sameEntries cache _).capacity
  · rfl

theorem capacity_evictOldest (cache : Cache α) : cache.evictOldest.capacity = cache.capacity := by
  unfold evictOldest
  split
  · rfl
  · split
    · rfl
    · exact (capacity_moveLast _ _).trans (unlink_sameEntries cache _).capacity

theorem capacity_makeRoom (cache : Cache α) : cache.makeRoom.capacity = cache.capacity := by
  have hrepeat : ∀ k, (Nat.repeat evictOldest k cache).capacity = cache.capacity := by
    intro k
    induction k with
    | zero => rfl
    | succ k ih => exact (capacity_evictOldest _).trans ih
  unfold makeRoom
  split
  · rfl
  · exact hrepeat _

theorem capacity_insert (cache : Cache α) (key : String) (value : α) :
    (cache.insert key value).2.capacity = cache.capacity := by
  have hlookup := capacity_lookup cache key
  unfold insert
  split <;> rename_i heq <;> rw [heq] at hlookup
  · exact hlookup
  · rw [push_eq, (linkFirst_sameEntries _ _).capacity]
    exact (capacity_makeRoom _).trans hlookup

namespace Represents

variable {cache : Cache α} {order : List Nat} {entries : List (String × α)}

/-- Adding a value gives what the list gives and leaves the cache with the list that is left
there. -/
theorem insert (h : cache.Represents order entries) (key : String) (value : α) :
    (cache.insert key value).1 = (Recent.insert cache.capacity entries key value).1 ∧
      ∃ order', (cache.insert key value).2.Represents order'
        (Recent.insert cache.capacity entries key value).2 := by
  obtain ⟨hreply, order', hrest⟩ := h.lookup key
  have hcapacity := capacity_lookup cache key
  unfold Cache.insert Recent.insert
  rcases hcache : cache.lookup key with ⟨found, cache'⟩
  rcases hlist : Recent.lookup entries key with ⟨found', entries'⟩
  rw [hcache] at hreply hrest hcapacity
  rw [hlist] at hreply hrest
  obtain rfl : found = found' := hreply
  cases found with
  | some existing => exact ⟨rfl, order', hrest⟩
  | none =>
    obtain ⟨rfl, hmissing⟩ := Recent.notMem_of_lookup hlist
    obtain ⟨order'', hroom⟩ := hrest.makeRoom
    rw [hcapacity] at hroom
    refine ⟨rfl, _, hroom.push value ?_⟩
    intro entry hentry
    exact hmissing entry ((Recent.makeRoom_sublist _ _).subset hentry)

/-- Asking for a key without touching its entry answers as the list does. -/
theorem contains_eq (h : cache.Represents order entries) (key : String) :
    cache.contains key = entries.any (·.1 = key) := by
  rw [Cache.contains, Std.HashMap.contains_eq_isSome_getElem?, Bool.eq_iff_iff, List.any_eq_true]
  constructor
  · intro hsome
    obtain ⟨i, hi⟩ := Option.isSome_iff_exists.mp hsome
    obtain ⟨_, _, efront, eback, value, _, rfl, _⟩ := h.split hi
    exact ⟨(key, value), by simp, by simp⟩
  · rintro ⟨entry, hentry, hkey⟩
    obtain ⟨i, _, _, hi⟩ := h.exists_slot hentry
    rw [of_decide_eq_true hkey] at hi
    rw [hi]
    rfl

/-- The loop that makes room comes to an end, and it ends with the cache that has room. -/
theorem evictsTo (h : cache.Represents order entries) {n : Nat} (hn : n ≠ 0) :
    EvictsTo n cache (Nat.repeat Cache.evictOldest (cache.size + 1 - n) cache) := by
  have hpeel : ∀ k (start : Cache α), Nat.repeat Cache.evictOldest (k + 1) start =
      Nat.repeat Cache.evictOldest k start.evictOldest := by
    intro k start
    induction k with
    | zero => rfl
    | succ k ih => exact congrArg Cache.evictOldest ih
  generalize hk : cache.size + 1 - n = k
  induction k generalizing cache order entries with
  | zero => exact EvictsTo.enough (by omega)
  | succ k ih =>
    obtain ⟨order', hnext⟩ := h.evictOldest
    have hsize : cache.evictOldest.size = cache.size - 1 := by
      rw [hnext.size_eq, h.size_eq, List.length_dropLast]
    rw [hpeel]
    exact EvictsTo.evict (by omega) (ih hnext (by omega))

end Represents

/-- A cache with the given capacity that represents a list no longer than that. -/
structure Follows (cache : Cache α) (capacity : Option Nat) (entries : List (String × α)) :
    Prop where
  capacity_eq : cache.capacity = capacity
  exists_order : ∃ order, cache.Represents order entries
  bounded : ∀ n, capacity = some n → entries.length ≤ n

end Cache

/-- No call makes the list longer than the capacity. -/
theorem Recent.length_serve_le {n : Nat} (hn : n ≠ 0) {entries : List (String × α)}
    (h : entries.length ≤ n) (call : CacheCall α) :
    (Recent.serve (some n) entries call).2.length ≤ n := by
  have hlookup : ∀ key, (Recent.lookup entries key).2.length ≤ n := by
    intro key
    unfold Recent.lookup
    split
    · next entry hfind =>
      have hmem := List.mem_of_find?_eq_some hfind
      have hkey := List.find?_some hfind
      have hlength : (entries.eraseP (·.1 = key)).length = entries.length - 1 :=
        List.length_eraseP_of_mem hmem hkey
      have hpos := List.length_pos_of_mem hmem
      simp only [List.length_cons]
      omega
    · exact h
  cases call with
  | get key => exact hlookup key
  | insert key value =>
    have hkey := hlookup key
    simp only [Recent.serve, Recent.insert]
    split
    · next heq => simpa [heq] using hkey
    · simp only [Recent.makeRoom, List.length_cons, List.length_take]
      omega
  | contains key => exact h
  | clear => exact Nat.zero_le n

/-- One call is answered as the list answers it, and the cache goes on following the list. -/
theorem Cache.Follows.serve {cache : Cache α} {capacity : Option Nat} {entries : List (String × α)}
    (h : cache.Follows capacity entries) (call : CacheCall α) :
    (cache.serve call).1 = (Recent.serve capacity entries call).1 ∧
      (cache.serve call).2.Follows capacity (Recent.serve capacity entries call).2 := by
  obtain ⟨rfl, ⟨order, hrep⟩, hbound⟩ := h
  have hbound' : ∀ n, cache.capacity = some n →
      (Recent.serve cache.capacity entries call).2.length ≤ n := by
    intro n hn
    have hne : n ≠ 0 := fun hzero => cache.capacity_ne_zero (hzero ▸ hn)
    rw [hn]
    exact Recent.length_serve_le hne (hbound n hn) call
  cases call with
  | get key =>
    obtain ⟨hreply, hnext⟩ := hrep.lookup key
    exact ⟨congrArg CacheReply.found hreply, capacity_lookup cache key, hnext, hbound'⟩
  | insert key value =>
    obtain ⟨hreply, hnext⟩ := hrep.insert key value
    exact ⟨congrArg CacheReply.cached hreply, capacity_insert cache key value, hnext, hbound'⟩
  | contains key =>
    exact ⟨congrArg CacheReply.present (hrep.contains_eq key), rfl, ⟨order, hrep⟩, hbound'⟩
  | clear => exact ⟨rfl, rfl, ⟨[], Represents.clear cache⟩, hbound'⟩

/-- The same for any number of calls. -/
theorem Cache.Follows.serveAll {cache : Cache α} {capacity : Option Nat}
    {entries : List (String × α)} (h : cache.Follows capacity entries)
    (calls : List (CacheCall α)) :
    (serveAll Cache.serve cache calls).1 = (serveAll (Recent.serve capacity) entries calls).1 ∧
      (serveAll Cache.serve cache calls).2.Follows capacity
        (serveAll (Recent.serve capacity) entries calls).2 := by
  induction calls generalizing cache entries with
  | nil => exact ⟨rfl, h⟩
  | cons call calls ih =>
    obtain ⟨hreply, hnext⟩ := h.serve call
    obtain ⟨hreplies, hlast⟩ := ih hnext
    exact ⟨congrArg₂ List.cons hreply hreplies, hlast⟩

/-- Whatever calls it serves, one after the other, a cache answers like the plain list, and its
links and its index stay exact. Every history of a cache is that of the plain list: the replies are
equal, and in the end the cache holds the entries of the list in an order of its slots that the
links follow in both directions. The index finds these entries alone, and there is room for one more
after finitely many evictions. -/
theorem Cache.serveAll_empty_eq_recent (capacity : Option Nat) (calls : List (CacheCall α)) :
    let limit := capacity.filter (· ≠ 0)
    let cache := (serveAll Cache.serve (Cache.empty capacity) calls).2
    let entries := (serveAll (Recent.serve limit) [] calls).2
    (serveAll Cache.serve (Cache.empty capacity) calls).1 =
        (serveAll (Recent.serve limit) [] calls).1 ∧
      cache.size = entries.length ∧
      (∀ key, cache.contains key = entries.any (·.1 = key)) ∧
      (∃ order : List Nat, order.Perm (List.range cache.size) ∧
        Leads cache.olderOf none order none ∧ Leads cache.newerOf none order.reverse none ∧
        order.map cache.entryAt = entries.map some) ∧
      (∀ key i, cache.index[key]? = some i ↔ (cache.entryAt i).map (·.1) = some key) ∧
      (∀ n, limit = some n → cache.size ≤ n ∧ Cache.EvictsTo n cache cache.makeRoom) := by
  intro limit cache entries
  have hempty : (Cache.empty capacity : Cache α).Follows limit [] :=
    ⟨rfl, ⟨[], Represents.empty capacity⟩, fun n _ => Nat.zero_le n⟩
  obtain ⟨hreplies, hcapacity, ⟨order, hrep⟩, hbound⟩ := hempty.serveAll calls
  refine ⟨hreplies, hrep.size_eq, hrep.contains_eq,
    ⟨order, hrep.order_perm, hrep.linked.older, hrep.linked.newer, hrep.contents⟩, hrep.indexed, ?_⟩
  intro n hn
  have hne : n ≠ 0 := fun hzero => cache.capacity_ne_zero (hzero ▸ hcapacity.trans hn)
  have hloop := hrep.evictsTo hne
  refine ⟨hrep.size_eq ▸ hbound n hn, ?_⟩
  rw [Cache.makeRoom, hcapacity.trans hn]
  exact hloop

/-- With room for two, a third key drives out the one that was not looked up in between. -/
theorem Cache.serveAll_drops_least_recent :
    let calls := [.insert "a" 1, .insert "b" 2, .get "a", .insert "c" 3, .get "b", .get "a"]
    let served := serveAll Cache.serve (Cache.empty (some 2) : Cache Nat) calls
    served.1 = [.cached 1, .cached 2, .found (some 1), .cached 3, .found none, .found (some 1)] ∧
      served.2.size ≤ 2 := by
  intro calls served
  obtain ⟨hreplies, _, _, _, _, hroom⟩ := Cache.serveAll_empty_eq_recent (some 2) calls
  exact ⟨hreplies.trans (by decide), (hroom 2 rfl).1⟩

end Questlog
