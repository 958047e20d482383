import Std.Data.HashMap

namespace Questlog

/-- A cached value, with the number of the slot used next more recently (`newer`) and next less
recently (`older`). -/
structure Slot (α : Type) where
  key : String
  value : α
  newer : Option Nat
  older : Option Nat

/-- Cached values, linked from the most to the least recently used. Without a capacity the cache
grows without bound. The cached values stand in numbered slots, each linked to the one used just
before it and the one used just after it, and an index finds the slot of a key. -/
structure Cache (α : Type) where
  slots : Array (Slot α)
  index : Std.HashMap String Nat
  newest : Option Nat
  oldest : Option Nat
  capacity : Option Nat
  capacity_ne_zero : capacity ≠ some 0

namespace Cache

variable {α : Type}

/-- An empty cache. A capacity of zero counts as none. -/
def empty (capacity : Option Nat) : Cache α :=
  { slots := #[]
    index := ∅
    newest := none
    oldest := none
    capacity := capacity.filter (· ≠ 0)
    capacity_ne_zero := by cases capacity <;> simp [Option.filter] }

/-- The number of cached values. -/
def size (cache : Cache α) : Nat :=
  cache.slots.size

/-- Whether a key has a cached value. -/
def contains (cache : Cache α) (key : String) : Bool :=
  cache.index.contains key

/-- Forgets everything. -/
def clear (cache : Cache α) : Cache α :=
  { cache with slots := #[], index := ∅, newest := none, oldest := none }

/-- Sets what was used just after a slot; without a slot, what was used least recently. -/
def setNewer (cache : Cache α) (slot : Option Nat) (newer : Option Nat) : Cache α :=
  match slot with
  | some i => { cache with slots := cache.slots.modify i fun s => { s with newer } }
  | none => { cache with oldest := newer }

/-- Sets what was used just before a slot; without a slot, what was used most recently. -/
def setOlder (cache : Cache α) (slot : Option Nat) (older : Option Nat) : Cache α :=
  match slot with
  | some i => { cache with slots := cache.slots.modify i fun s => { s with older } }
  | none => { cache with newest := older }

/-- Takes slot `i` out of the links, by linking its neighbours to each other. -/
def unlink (cache : Cache α) (i : Nat) : Cache α :=
  match cache.slots[i]? with
  | some slot => (cache.setOlder slot.newer slot.older).setNewer slot.older slot.newer
  | none => cache

/-- Puts slot `i`, which is in no links, in front of the newest one. -/
def linkFirst (cache : Cache α) (i : Nat) : Cache α :=
  let older := cache.newest
  (((cache.setNewer (some i) none).setOlder (some i) older).setNewer older (some i)).setOlder none
    (some i)

/-- Makes slot `i` the most recently used one. -/
def promote (cache : Cache α) (i : Nat) : Cache α :=
  if cache.newest = some i then cache else (cache.unlink i).linkFirst i

/-- The value cached for a key, which becomes the most recently used one. -/
def lookup (cache : Cache α) (key : String) : Option α × Cache α :=
  match cache.index[key]? with
  | some i => (cache.slots[i]?.map (·.value), cache.promote i)
  | none => (none, cache)

/-- Moves the last slot to the free place `i`, and what points to it along. -/
def moveLast (cache : Cache α) (i : Nat) : Cache α :=
  match cache.slots.back? with
  | none => cache
  | some last =>
    let cache := { cache with slots := (cache.slots.setIfInBounds i last).pop }
    if i < cache.slots.size then
      let cache := (cache.setOlder last.newer (some i)).setNewer last.older (some i)
      { cache with index := cache.index.insert last.key i }
    else
      cache

/-- Forgets the least recently used value. -/
def evictOldest (cache : Cache α) : Cache α :=
  match cache.oldest with
  | none => cache
  | some i =>
    match cache.slots[i]? with
    | none => cache
    | some slot =>
      let cache := cache.unlink i
      { cache with index := cache.index.erase slot.key }.moveLast i

/-- Forgets values until there is room for one more. -/
def makeRoom (cache : Cache α) : Cache α :=
  match cache.capacity with
  | none => cache
  | some n => Nat.repeat evictOldest (cache.size + 1 - n) cache

/-- Adds a value for a key that has none, as the most recently used one. -/
def push (cache : Cache α) (key : String) (value : α) : Cache α :=
  let i := cache.slots.size
  { cache with
    slots := cache.slots.push { key, value, newer := none, older := none }
    index := cache.index.insert key i }.linkFirst i

/-- Caches a value, unless its key has one already; gives the value that is now cached. -/
def insert (cache : Cache α) (key : String) (value : α) : α × Cache α :=
  match cache.lookup key with
  | (some existing, cache) => (existing, cache)
  | (none, cache) => (value, cache.makeRoom.push key value)

end Cache

end Questlog
