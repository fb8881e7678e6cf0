import AccessControl.Memo
import AccessControl.Number.Arithmetic
import AccessControl.Policy.Row

/-! # The decision cache

Decisions are kept under keys, for a limited time and up to a limited number. The cache has a clock
of its own, which `elapse` moves; an entry expires when the clock has passed its deadline. A full
cache drops its expired entries first, and then entries of its choice until there is room. The clock
tells moments up to a last one only: to keep a decision for longer breaks off, and with it the call
that does so.
-/

namespace AccessControl

/-- The outcome of a request. -/
structure Decision where
  allowed : Bool
  /-- The rows that produced the outcome, in the order of the policy. -/
  explain : List Row
  deriving DecidableEq

structure CacheSettings where
  /-- How many milliseconds an entry lives; without a value, for ever. -/
  ttl : Option Nat := none
  /-- How many nanoseconds it lives beyond these milliseconds. -/
  ttlRest : Nat := 0
  /-- How many entries there may be; without a value, any number. -/
  capacity : Option Nat := some 10000
  deriving DecidableEq

def DecisionCache.nanosecondsPerMillisecond : Nat := 1000000

/-- The last nanosecond of a clock that counts seconds in signed 64-bit words. -/
def DecisionCache.lastMoment : Nat := UInt64.size / 2 * 1000000000 - 1

/-- How many nanoseconds an entry lives. -/
def CacheSettings.lifetime? (settings : CacheSettings) : Option Nat :=
  settings.ttl.map fun ttl => ttl * DecisionCache.nanosecondsPerMillisecond + settings.ttlRest

/-- A decision and the last moment at which it holds. -/
structure CachedDecision where
  decision : Decision
  deadline : Option Nat

structure DecisionCache (κ : Type) where
  settings : CacheSettings := {}
  /-- The position of the entry to drop from a full cache; by default the oldest one. -/
  victim : List κ → Nat := fun keys => keys.length - 1
  /-- The time in nanoseconds. -/
  clock : Nat := 0
  /-- The last moment that the clock can tell. -/
  latest : Nat := DecisionCache.lastMoment
  entries : List (κ × CachedDecision) := []
  hits : Nat := 0
  misses : Nat := 0
  /-- How many entries have been dropped, for their age or for want of room. -/
  evictions : Nat := 0
  largest : Nat := 0

namespace DecisionCache

variable {κ : Type}

def elapse (cache : DecisionCache κ) (nanoseconds : Nat) : DecisionCache κ :=
  { cache with clock := cache.clock + nanoseconds }

def size (cache : DecisionCache κ) : Nat := cache.entries.length

def isExpired (cache : DecisionCache κ) (entry : CachedDecision) : Bool :=
  match entry.deadline with
  | none => false
  | some deadline => deadline < cache.clock

/-- Keep the given entries, and count the others as dropped. -/
def keep (cache : DecisionCache κ) (entries : List (κ × CachedDecision)) : DecisionCache κ :=
  { cache with entries, evictions := cache.evictions + (cache.size - entries.length) }

def cleanup (cache : DecisionCache κ) : DecisionCache κ :=
  cache.keep (cache.entries.filter fun entry => !cache.isExpired entry.2)

def makeRoom (cache : DecisionCache κ) (capacity : Nat) : DecisionCache κ :=
  if cache.size < capacity then cache
  else
    let cache := cache.cleanup
    cache.keep (Memo.shrink cache.victim capacity cache.entries)

/-- Drop all entries; they do not count as evicted. -/
def clear (cache : DecisionCache κ) : DecisionCache κ := { cache with entries := [] }

/-- The share of hits among all look-ups. -/
def hitRatio (cache : DecisionCache κ) : Binary64 :=
  if cache.hits + cache.misses = 0 then Binary64.zero
  else (Binary64.ofInt cache.hits).div (Binary64.ofInt (cache.hits + cache.misses : Nat))

variable [BEq κ]

/-- The entry of a key, expired or not. -/
def entry? (cache : DecisionCache κ) (key : κ) : Option CachedDecision := cache.entries.lookup key

def drop (cache : DecisionCache κ) (key : κ) : DecisionCache κ :=
  cache.keep (cache.entries.filter fun entry => !(entry.1 == key))

/-- Look up a decision. An expired entry is dropped, and counts as none. -/
def get (cache : DecisionCache κ) (key : κ) : Option Decision × DecisionCache κ :=
  match cache.entry? key with
  | none => (none, { cache with misses := cache.misses + 1 })
  | some entry =>
    if cache.isExpired entry then
      let cache := cache.drop key
      (none, { cache with misses := cache.misses + 1 })
    else (some entry.decision, { cache with hits := cache.hits + 1 })

/-- The last moment of an entry that is made now. -/
def deadline? (cache : DecisionCache κ) : Option Nat :=
  cache.settings.lifetime?.map (cache.clock + ·)

/-- Whether the clock can tell that moment. -/
def tellsDeadline (cache : DecisionCache κ) : Bool := cache.deadline?.all (· ≤ cache.latest)

/-- Put an entry in, in place of any other of its key. -/
def store (cache : DecisionCache κ) (key : κ) (decision : Decision) : DecisionCache κ :=
  let others := cache.entries.filter fun entry => !(entry.1 == key)
  let entries := (key, { decision, deadline := cache.deadline? }) :: others
  { cache with entries, largest := max cache.largest entries.length }

/-- The cache with room for an entry of a key. A cache of capacity zero has none. -/
def withRoom? (cache : DecisionCache κ) (key : κ) : Option (DecisionCache κ) :=
  match cache.settings.capacity with
  | none => some cache
  | some capacity =>
    if capacity = 0 then none
    else some (if (cache.entry? key).isSome then cache else cache.makeRoom capacity)

/-- Keep a decision under a key, where there is room. -/
def set (cache : DecisionCache κ) (key : κ) (decision : Decision) : DecisionCache κ :=
  match cache.withRoom? key with
  | none => cache
  | some cache => cache.store key decision

/-- The same, unless the clock cannot tell the deadline, which comes out when room has been made. -/
def set? (cache : DecisionCache κ) (key : κ) (decision : Decision) : Option (DecisionCache κ) :=
  match cache.withRoom? key with
  | none => some cache
  | some cache => if cache.tellsDeadline then some (cache.store key decision) else none

/-- What a call to keep a decision leaves behind, whether or not it breaks off. -/
def afterSet (cache : DecisionCache κ) (key : κ) (decision : Decision) : DecisionCache κ :=
  (cache.set? key decision).getD ((cache.withRoom? key).getD cache)

end DecisionCache

end AccessControl
