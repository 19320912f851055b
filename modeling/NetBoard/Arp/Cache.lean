/-
  NetBoard.Arp.Cache
  ──────────────────
  **RESOLVED ADDRESSES.**

  A fixed number of slots, each free or holding one mapping with the time of
  its latest confirmation.  A new mapping takes the slot of its own address,
  else a free slot, else the slots in turn.

  Main definitions:

      Cache.insert   — remember a mapping
      Cache.lookup   — the hardware address of a mapping that has not expired
      Cache.expire   — free the slots of mappings as old as the timeout
-/
import NetBoard.Address

namespace NetBoard.Arp

/-- A resolved address. -/
structure Cache.Entry where
  ip : Ipv4
  mac : MacAddress
  /-- When the mapping was last confirmed. -/
  updated : Nat
  deriving Repr, DecidableEq, Inhabited

/-- The slots of resolved addresses. -/
structure Cache where
  slots : List (Option Cache.Entry)
  /-- The slot that is overwritten next when none is free. -/
  next : Nat := 0
  /-- The age at which a mapping expires, if it ever does. -/
  timeout : Option Nat
  deriving Repr, DecidableEq, Inhabited

namespace Cache

/-- Free slots only; there is at least one. -/
def make (entries : Nat) (timeout : Option Nat) : Cache :=
  { slots := List.replicate (max entries 1) none, timeout }

/-- Has the mapping expired?  Its age is zero if it was confirmed after `now`. -/
def Entry.expired (timeout now : Nat) (e : Entry) : Bool := timeout ≤ now - e.updated

/-- Free the slots of expired mappings. -/
def expire (c : Cache) (now : Nat) : Cache :=
  match c.timeout with
  | none => c
  | some timeout => { c with slots := c.slots.map fun s => s.filter (!·.expired timeout now) }

/-- Does the slot hold a mapping of this address? -/
def holds (ip : Ipv4) (slot : Option Entry) : Bool := slot.any (·.ip == ip)

/-- The hardware address of `ip`, after expired mappings are gone. -/
def lookup (c : Cache) (ip : Ipv4) (now : Nat) : Cache × Option MacAddress :=
  let c := c.expire now
  (c, (c.slots.findSome? fun s => s.filter (·.ip == ip)).map (·.mac))

/-- Remember a mapping: in the slot of its address, else in a free one, else
in the one whose turn it is. -/
def insert (c : Cache) (ip : Ipv4) (mac : MacAddress) (now : Nat) : Cache :=
  let entry : Entry := ⟨ip, mac, now⟩
  match c.slots.findIdx? (holds ip) with
  | some i => { c with slots := c.slots.set i entry }
  | none =>
    match c.slots.findIdx? (·.isNone) with
    | some i => { c with slots := c.slots.set i entry }
    | none => { c with slots := c.slots.set c.next entry, next := (c.next + 1) % c.slots.length }

/-- The number of mappings held. -/
def size (c : Cache) : Nat := c.slots.countP (·.isSome)

/-- No operation adds or removes a slot. -/
@[simp] theorem length_slots_insert (c : Cache) (ip : Ipv4) (mac : MacAddress) (now : Nat) :
    (c.insert ip mac now).slots.length = c.slots.length := by
  unfold insert
  dsimp only
  repeat' split
  all_goals simp

@[simp] theorem length_slots_expire (c : Cache) (now : Nat) :
    (c.expire now).slots.length = c.slots.length := by
  unfold expire
  split <;> simp

theorem size_le_length (c : Cache) : c.size ≤ c.slots.length := List.countP_le_length

end Cache
end NetBoard.Arp
