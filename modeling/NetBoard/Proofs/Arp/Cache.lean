/-
  NetBoard.Proofs.Arp.Cache
  ─────────────────────────
  **THE CACHE IS A BOUNDED MAP.**

  A mapping is remembered in place: in the slot of its address, in a free one,
  or in the one whose turn it is.  Seen from outside the slots are a map with
  at most one mapping for each address, the latest one.  As long as nothing
  expires, the slots from the turn on, round the circle, are the addresses
  that were placed last, the oldest first, and behind them what is still free.

  Main definitions:

      mapping?    — the mapping of an address, expired or not
      Insertion   — all that remembering a mapping can do
      Use         — what can be done with a cache
      latest?     — the latest mapping of an address that a cache was given
      placements  — the addresses placed in a first-in first-out map

  Main statements:

      insertion          — the three ways in which a mapping is remembered
      Sound.use          — no use gives an address a second slot
      Insertion.queued   — a mapping joins the queue, or changes nothing of it
      sound_bounded_map  — over all uses, what is found and what is not
-/
import Mathlib.Data.List.Rotate
import NetBoard.Arp.Cache

namespace NetBoard.Arp.Cache

variable {c c' : Cache} {ip : Ipv4} {mac : MacAddress} {now : Nat} {e f : Entry}

/-! ## §1. What the slots hold. -/

/-- The mapping of an address, expired or not. -/
def mapping? (c : Cache) (ip : Ipv4) : Option Entry :=
  c.slots.findSome? fun slot => slot.filter (·.ip == ip)

theorem lookup_snd (c : Cache) (ip : Ipv4) (now : Nat) :
    (c.lookup ip now).2 = ((c.expire now).mapping? ip).map (·.mac) := rfl

theorem mem_of_mapping? (h : c.mapping? ip = some e) : some e ∈ c.slots ∧ e.ip = ip := by
  obtain ⟨slot, hslot, hfilter⟩ := List.exists_of_findSome?_eq_some h
  rw [Option.filter_eq_some_iff] at hfilter
  obtain ⟨rfl, hip⟩ := hfilter
  exact ⟨hslot, beq_iff_eq.1 hip⟩

theorem mapping?_eq_none_iff : c.mapping? ip = none ↔ ∀ e, some e ∈ c.slots → e.ip ≠ ip := by
  unfold mapping?
  rw [List.findSome?_eq_none_iff]
  constructor
  · intro h e he
    simpa using h _ he
  · intro h slot hslot
    cases slot with
    | none => rfl
    | some e => simpa using h e hslot

/-- A mapping outlives the moment if its age is below the timeout. -/
theorem mem_expire_iff :
    some e ∈ (c.expire now).slots ↔
      some e ∈ c.slots ∧ ∀ lifetime ∈ c.timeout, now - e.updated < lifetime := by
  unfold expire
  cases htimeout : c.timeout with
  | none => simp
  | some lifetime =>
    simp only [List.mem_map, Option.filter_eq_some_iff, Entry.expired]
    constructor
    · rintro ⟨slot, hslot, rfl, hage⟩
      refine ⟨hslot, ?_⟩
      rintro _ ⟨⟩
      simpa using hage
    · rintro ⟨hslot, hage⟩
      exact ⟨some e, hslot, rfl, by simpa using hage lifetime rfl⟩

theorem mem_expire (h : some e ∈ (c.expire now).slots) : some e ∈ c.slots :=
  (mem_expire_iff.1 h).1

/-- What is found was remembered. -/
theorem mem_of_lookup (h : (c.lookup ip now).2 = some mac) :
    ∃ e, some e ∈ c.slots ∧ e.ip = ip ∧ e.mac = mac := by
  obtain ⟨e, hfound, hmac⟩ := Option.map_eq_some_iff.1 h
  obtain ⟨hslot, hip⟩ := mem_of_mapping? hfound
  exact ⟨e, mem_expire hslot, hip, hmac⟩

/-- The slot whose turn it is stays one of the cache. -/
theorem next_expire (hturn : c.next < c.slots.length) (now : Nat) :
    (c.expire now).next < (c.expire now).slots.length := by
  rw [length_slots_expire]
  unfold expire
  split <;> exact hturn

theorem timeout_expire (c : Cache) (now : Nat) : (c.expire now).timeout = c.timeout := by
  unfold expire
  split
  · rfl
  · next h => exact h.symm ▸ rfl

theorem expire_of_no_timeout (h : c.timeout = none) (now : Nat) : c.expire now = c := by
  unfold expire
  rw [h]

/-! ## §2. Remembering a mapping. -/

/-- **All that remembering a mapping can do.** -/
inductive Insertion (c : Cache) (e : Entry) : Cache → Prop
  /-- Its address has a slot. -/
  | refresh {i : Nat} {old : Entry} : c.slots[i]? = some (some old) → old.ip = e.ip →
      Insertion c e { c with slots := c.slots.set i (some e) }
  /-- Its address has none, and this is the first free one. -/
  | fill {i : Nat} : c.mapping? e.ip = none → c.slots[i]? = some none →
      (∀ j < i, c.slots[j]? ≠ some none) →
      Insertion c e { c with slots := c.slots.set i (some e) }
  /-- None is free. -/
  | overwrite : c.mapping? e.ip = none → none ∉ c.slots →
      Insertion c e { c with
        slots := c.slots.set c.next (some e), next := (c.next + 1) % c.slots.length }

theorem insertion (c : Cache) (ip : Ipv4) (mac : MacAddress) (now : Nat) :
    Insertion c ⟨ip, mac, now⟩ (c.insert ip mac now) := by
  unfold insert
  dsimp only
  cases hown : c.slots.findIdx? (holds ip) with
  | some i =>
    obtain ⟨hlt, hholds, -⟩ := List.findIdx?_eq_some_iff_getElem.1 hown
    cases hslot : c.slots[i] with
    | none => simp [holds, hslot] at hholds
    | some old =>
      exact .refresh (by rw [List.getElem?_eq_getElem hlt, hslot])
        (by simpa [holds, hslot] using hholds)
  | none =>
    have habsent : c.mapping? ip = none := by
      rw [mapping?_eq_none_iff]
      intro e he hip
      have hnone := List.findIdx?_eq_none_iff.1 hown _ he
      simp [holds, hip] at hnone
    dsimp only
    cases hfree : c.slots.findIdx? (·.isNone) with
    | some i =>
      obtain ⟨hlt, hnone, hbefore⟩ := List.findIdx?_eq_some_iff_getElem.1 hfree
      refine .fill habsent ?_ ?_
      · rw [List.getElem?_eq_getElem hlt, Option.isNone_iff_eq_none.1 hnone]
      · intro j hj hslot
        rw [List.getElem?_eq_getElem (by omega), Option.some_inj] at hslot
        exact hbefore j hj (by rw [hslot]; rfl)
    | none =>
      refine .overwrite habsent fun hmem => ?_
      have hsome := List.findIdx?_eq_none_iff.1 hfree _ hmem
      cases hsome

/-- A mapping that is remembered is new or was remembered before. -/
theorem mem_insert (h : some e ∈ (c.insert ip mac now).slots) :
    some e ∈ c.slots ∨ e.ip = ip ∧ e.mac = mac := by
  have hset : ∀ i, some e ∈ c.slots.set i (some ⟨ip, mac, now⟩) →
      some e ∈ c.slots ∨ e.ip = ip ∧ e.mac = mac := by
    intro i hmem
    rcases List.mem_or_eq_of_mem_set hmem with hold | hnew
    · exact .inl hold
    · cases hnew
      exact .inr ⟨rfl, rfl⟩
  -- in each of the three ways the new mapping is set in one slot
  generalize hc' : c.insert ip mac now = c' at h
  cases hc' ▸ c.insertion ip mac now with
  | refresh => exact hset _ h
  | fill => exact hset _ h
  | overwrite => exact hset _ h

/-- No address has two slots, and the slot whose turn it is, is one of them. -/
structure Sound (c : Cache) : Prop where
  single : ∀ {i j : Nat} {e f : Entry}, c.slots[i]? = some (some e) →
    c.slots[j]? = some (some f) → e.ip = f.ip → i = j
  turn : c.next < c.slots.length

/-- A new mapping takes one slot, and no other one has its address. -/
theorem Insertion.slots (hc : c.Sound) (h : Insertion c e c') :
    ∃ i, i < c.slots.length ∧ c'.slots = c.slots.set i (some e) ∧
      ∀ {j : Nat} {f : Entry}, c.slots[j]? = some (some f) → f.ip = e.ip → j = i := by
  have hnone : c.mapping? e.ip = none → ∀ {i j : Nat} {f : Entry},
      c.slots[j]? = some (some f) → f.ip = e.ip → j = i := by
    intro habsent i j f hslot hip
    exact absurd hip (mapping?_eq_none_iff.1 habsent f (List.mem_of_getElem? hslot))
  cases h with
  | refresh hslot hip =>
    obtain ⟨hlt, -⟩ := List.getElem?_eq_some_iff.1 hslot
    exact ⟨_, hlt, rfl, fun hother hsame => hc.single hother hslot (hsame.trans hip.symm)⟩
  | fill habsent hfree _ =>
    obtain ⟨hlt, -⟩ := List.getElem?_eq_some_iff.1 hfree
    exact ⟨_, hlt, rfl, hnone habsent⟩
  | overwrite habsent _ => exact ⟨_, hc.turn, rfl, hnone habsent⟩

theorem Insertion.next (hturn : c.next < c.slots.length) (h : Insertion c e c') :
    c'.next < c'.slots.length := by
  cases h with
  | refresh | fill => simpa using hturn
  | overwrite =>
    rw [List.length_set]
    exact Nat.mod_lt _ (by omega)

theorem Insertion.timeout (h : Insertion c e c') : c'.timeout = c.timeout := by
  cases h <;> rfl

/-- What the slots hold afterwards: in one the new mapping, in the others those of
other addresses. -/
theorem Insertion.slot_cases (hc : c.Sound) (h : Insertion c e c') :
    ∃ i, ∀ {j : Nat} {f : Entry}, c'.slots[j]? = some (some f) →
      j = i ∧ f = e ∨ c.slots[j]? = some (some f) ∧ f.ip ≠ e.ip := by
  obtain ⟨i, hlt, hslots, honly⟩ := h.slots hc
  refine ⟨i, fun {j f} hslot => ?_⟩
  rw [hslots, List.getElem?_set] at hslot
  by_cases hij : i = j
  · rw [if_pos hij, if_pos hlt] at hslot
    exact .inl ⟨hij.symm, (Option.some.inj (Option.some.inj hslot)).symm⟩
  · rw [if_neg hij] at hslot
    exact .inr ⟨hslot, fun hip => hij (honly hslot hip).symm⟩

theorem Insertion.sound (hc : c.Sound) (h : Insertion c e c') : c'.Sound := by
  obtain ⟨i, hcases⟩ := h.slot_cases hc
  refine ⟨fun {j k f g} hj hk hip => ?_, h.next hc.turn⟩
  rcases hcases hj with ⟨rfl, rfl⟩ | ⟨hold, hother⟩
  · rcases hcases hk with ⟨rfl, -⟩ | ⟨-, hother⟩
    · rfl
    · exact absurd hip.symm hother
  · rcases hcases hk with ⟨rfl, rfl⟩ | ⟨hold', -⟩
    · exact absurd hip hother
    · exact hc.single hold hold' hip

theorem Sound.expire (hc : c.Sound) (now : Nat) : (c.expire now).Sound := by
  have hkept : ∀ {i : Nat} {e : Entry}, (c.expire now).slots[i]? = some (some e) →
      c.slots[i]? = some (some e) := by
    intro i e hslot
    unfold Cache.expire at hslot
    cases htimeout : c.timeout with
    | none => simpa [htimeout] using hslot
    | some lifetime =>
      simp only [htimeout, List.getElem?_map, Option.map_eq_some_iff] at hslot
      obtain ⟨slot, hslot, hfilter⟩ := hslot
      rw [hslot, (Option.filter_eq_some_iff.1 hfilter).1]
  exact ⟨fun hi hj hip => hc.single (hkept hi) (hkept hj) hip, next_expire hc.turn now⟩

/-- In a sound cache the mapping of an address is the one in its slot. -/
theorem Sound.mapping?_eq_some_iff (hc : c.Sound) :
    c.mapping? ip = some e ↔ some e ∈ c.slots ∧ e.ip = ip := by
  refine ⟨mem_of_mapping?, ?_⟩
  rintro ⟨hslot, hip⟩
  cases hfound : c.mapping? ip with
  | none => exact absurd hip (mapping?_eq_none_iff.1 hfound e hslot)
  | some f =>
    obtain ⟨hslot', hip'⟩ := mem_of_mapping? hfound
    obtain ⟨i, hi⟩ := List.mem_iff_getElem?.1 hslot
    obtain ⟨j, hj⟩ := List.mem_iff_getElem?.1 hslot'
    obtain rfl := hc.single hi hj (hip.trans hip'.symm)
    exact (Option.some.inj (hi.symm.trans hj)).symm

/-! ## §3. Uses. -/

/-- What can be done with a cache. -/
inductive Use where
  | insert (ip : Ipv4) (mac : MacAddress) (now : Nat)
  | lookup (ip : Ipv4) (now : Nat)
  | expire (now : Nat)
  deriving Repr, DecidableEq

/-- The cache after one use. -/
def use (c : Cache) : Use → Cache
  | .insert ip mac now => c.insert ip mac now
  | .lookup ip now => (c.lookup ip now).1
  | .expire now => c.expire now

/-- A cache after a number of uses, the oldest first. -/
def after (entries : Nat) (timeout : Option Nat) (uses : List Use) : Cache :=
  uses.foldl use (make entries timeout)

/-- What a use says of an address. -/
def Use.told? (ip : Ipv4) : Use → Option (MacAddress × Nat)
  | .insert x mac now => if x = ip then some (mac, now) else none
  | _ => none

/-- The latest mapping of an address that a cache was given, and when. -/
def latest? (uses : List Use) (ip : Ipv4) : Option (MacAddress × Nat) :=
  uses.reverse.findSome? (·.told? ip)

theorem after_concat (entries : Nat) (timeout : Option Nat) (uses : List Use) (u : Use) :
    after entries timeout (uses ++ [u]) = (after entries timeout uses).use u := by
  simp [after]

theorem latest?_concat (uses : List Use) (u : Use) (ip : Ipv4) :
    latest? (uses ++ [u]) ip = (u.told? ip).or (latest? uses ip) := by
  unfold latest?
  rw [List.reverse_concat, List.findSome?_cons]
  cases u.told? ip <;> rfl

/-- Looking up and freeing slots are the same to the cache. -/
theorem use_cases (c : Cache) (u : Use) :
    (∃ ip mac now, u = .insert ip mac now) ∨
      ∃ now, c.use u = c.expire now ∧ ∀ ip, u.told? ip = none := by
  cases u with
  | insert ip mac now => exact .inl ⟨ip, mac, now, rfl⟩
  | lookup ip now => exact .inr ⟨now, rfl, fun _ => rfl⟩
  | expire now => exact .inr ⟨now, rfl, fun _ => rfl⟩

/-- A use keeps the number of slots and the timeout. -/
theorem frame_use (c : Cache) (u : Use) :
    (c.use u).slots.length = c.slots.length ∧ (c.use u).timeout = c.timeout := by
  rcases c.use_cases u with ⟨ip, mac, now, rfl⟩ | ⟨now, huse, -⟩
  · exact ⟨length_slots_insert c ip mac now, (c.insertion ip mac now).timeout⟩
  · rw [huse]
    exact ⟨length_slots_expire c now, timeout_expire c now⟩

theorem frame_after (entries : Nat) (timeout : Option Nat) (uses : List Use) :
    (after entries timeout uses).slots.length = max entries 1 ∧
      (after entries timeout uses).timeout = timeout := by
  induction uses using List.reverseRecOn with
  | nil => exact ⟨List.length_replicate, rfl⟩
  | append_singleton uses u ih =>
    obtain ⟨hlength, htimeout⟩ := frame_use (after entries timeout uses) u
    rw [after_concat, hlength, htimeout]
    exact ih

/-- **No use gives an address a second slot.** -/
theorem Sound.use (hc : c.Sound) (u : Use) : (c.use u).Sound := by
  rcases c.use_cases u with ⟨ip, mac, now, rfl⟩ | ⟨now, huse, -⟩
  · exact (c.insertion ip mac now).sound hc
  · rw [huse]
    exact hc.expire now

theorem sound_make (entries : Nat) (timeout : Option Nat) : (make entries timeout).Sound := by
  refine ⟨fun hi _ _ => ?_, ?_⟩
  · have hfree := List.eq_of_mem_replicate (List.mem_of_getElem? hi)
    cases hfree
  · show 0 < (List.replicate (max entries 1) none).length
    rw [List.length_replicate]
    omega

theorem sound_after (entries : Nat) (timeout : Option Nat) (uses : List Use) :
    (after entries timeout uses).Sound := by
  induction uses using List.reverseRecOn with
  | nil => exact sound_make entries timeout
  | append_singleton uses u ih =>
    rw [after_concat]
    exact ih.use u

/-- **What a cache holds of an address is the latest it was given.** -/
theorem latest_of_mem (entries : Nat) (timeout : Option Nat) (uses : List Use) :
    ∀ e, some e ∈ (after entries timeout uses).slots →
      latest? uses e.ip = some (e.mac, e.updated) := by
  induction uses using List.reverseRecOn with
  | nil =>
    intro e he
    have hfree := List.eq_of_mem_replicate he
    cases hfree
  | append_singleton uses u ih =>
    intro e he
    rw [after_concat] at he
    rw [latest?_concat]
    -- a mapping of another address is still what that one was given last
    rcases (after entries timeout uses).use_cases u with ⟨ip, mac, now, rfl⟩ | ⟨now, huse, htold⟩
    · obtain ⟨j, hj⟩ := List.mem_iff_getElem?.1 he
      obtain ⟨i, hcases⟩ :=
        ((after entries timeout uses).insertion ip mac now).slot_cases (sound_after _ _ uses)
      rcases hcases hj with ⟨-, rfl⟩ | ⟨hold, hother⟩
      · simp [Use.told?]
      · have hnone : (Use.insert ip mac now).told? e.ip = none := if_neg (Ne.symm hother)
        rw [hnone, Option.none_or]
        exact ih e (List.mem_of_getElem? hold)
    · rw [huse] at he
      rw [htold, Option.none_or]
      exact ih e (mem_expire he)

/-! ## §4. First in, first out. -/

/-- One more use of a first-in first-out map of this capacity, of which the
placements are known, the latest first: an address that is among the last ones is
refreshed where it stands, any other is placed. -/
def place (capacity : Nat) (placed : List Ipv4) : Use → List Ipv4
  | .insert ip _ _ => if ip ∈ placed.take capacity then placed else ip :: placed
  | _ => placed

/-- The addresses in the order in which they were placed, the latest first. -/
def placements (capacity : Nat) (uses : List Use) : List Ipv4 := uses.foldl (place capacity) []

theorem placements_concat (capacity : Nat) (uses : List Use) (u : Use) :
    placements capacity (uses ++ [u]) = place capacity (placements capacity uses) u := by
  simp [placements]

/-- The addresses in the slots. -/
def addresses (c : Cache) : List (Option Ipv4) := c.slots.map (·.map (·.ip))

/-- **The slots are the queue**: from the turn on, round the circle, they hold the
addresses placed last, the oldest first, and then nothing.  The turn does not move
before all are taken. -/
structure Queued (c : Cache) (placed : List Ipv4) : Prop where
  circle : c.addresses.rotate c.next = (placed.take c.slots.length).reverse.map some ++
    List.replicate (c.slots.length - placed.length) none
  start : placed.length < c.slots.length → c.next = 0

@[simp] theorem length_addresses (c : Cache) : c.addresses.length = c.slots.length :=
  List.length_map _

theorem mem_addresses_iff {address : Option Ipv4} :
    address ∈ c.addresses ↔ ∃ slot ∈ c.slots, slot.map (·.ip) = address := List.mem_map

section Queue

variable {placed : List Ipv4}

/-- The addresses with a mapping are those placed last. -/
theorem Queued.mem_iff (hq : c.Queued placed) :
    (∃ e, some e ∈ c.slots ∧ e.ip = ip) ↔ ip ∈ placed.take c.slots.length := by
  have hqueue : some ip ∈ c.addresses ↔ ip ∈ placed.take c.slots.length := by
    rw [← List.mem_rotate (n := c.next), hq.circle, List.mem_append, List.mem_map]
    constructor
    · rintro (⟨x, hx, hip⟩ | hfree)
      · rwa [← Option.some.inj hip, ← List.mem_reverse]
      · cases List.eq_of_mem_replicate hfree
    · intro hmem
      exact .inl ⟨ip, List.mem_reverse.2 hmem, rfl⟩
  rw [← hqueue, mem_addresses_iff]
  constructor
  · rintro ⟨e, he, hip⟩
    exact ⟨some e, he, congrArg some hip⟩
  · rintro ⟨_ | e, hslot, hip⟩
    · cases hip
    · exact ⟨e, hslot, Option.some.inj hip⟩

/-- A slot is free as long as fewer addresses were placed than there are slots. -/
theorem Queued.free_iff (hq : c.Queued placed) :
    none ∈ c.slots ↔ placed.length < c.slots.length := by
  have hqueue : none ∈ c.addresses ↔ placed.length < c.slots.length := by
    rw [← List.mem_rotate (n := c.next), hq.circle, List.mem_append, List.mem_replicate]
    constructor
    · rintro (hplaced | ⟨hleft, -⟩)
      · obtain ⟨x, -, hx⟩ := List.mem_map.1 hplaced
        cases hx
      · omega
    · intro hlt
      exact .inr ⟨by omega, rfl⟩
  rw [← hqueue, mem_addresses_iff]
  constructor
  · intro hfree
    exact ⟨none, hfree, rfl⟩
  · rintro ⟨slot, hslot, hnone⟩
    rwa [← Option.map_eq_none_iff.1 hnone]

/-- A refreshed address keeps its place. -/
theorem Queued.refresh (hq : c.Queued placed) {i : Nat} {old : Entry}
    (hslot : c.slots[i]? = some (some old)) (hip : old.ip = e.ip) :
    Queued { c with slots := c.slots.set i (some e) } placed := by
  have hsame : (c.slots.set i (some e)).map (·.map (·.ip)) = c.addresses := by
    obtain ⟨hlt, hi⟩ := List.getElem?_eq_some_iff.1 hslot
    have hplace : i < c.addresses.length := by rwa [length_addresses]
    have hold : some e.ip = c.addresses[i] := by simp [addresses, hi, hip]
    rw [List.map_set, Option.map_some, hold]
    exact List.set_getElem_self _
  refine ⟨?_, ?_⟩
  · show ((c.slots.set i (some e)).map (·.map (·.ip))).rotate c.next = _
    rw [hsame, List.length_set]
    exact hq.circle
  · rw [List.length_set]
    exact hq.start

/-- The first free slot is the one behind the addresses placed so far. -/
theorem Queued.fill (hq : c.Queued placed) {i : Nat} (hfree : c.slots[i]? = some none)
    (hfirst : ∀ j < i, c.slots[j]? ≠ some none) :
    Queued { c with slots := c.slots.set i (some e) } (e.ip :: placed) := by
  have hroom : placed.length < c.slots.length := hq.free_iff.1 (List.mem_of_getElem? hfree)
  have hlen : (placed.reverse.map some).length = placed.length := by simp
  -- the turn has not moved, so that the free slots are those at the end
  have hrow : c.addresses = placed.reverse.map some ++
      none :: List.replicate (c.slots.length - (placed.length + 1)) none := by
    have hcircle := hq.circle
    rw [hq.start hroom, List.rotate_zero, List.take_of_length_le (by omega)] at hcircle
    rw [hcircle, ← List.replicate_succ]
    congr 2
    omega
  have hat : ∀ j : Nat, c.addresses[j]? = some none ↔ c.slots[j]? = some none := by
    intro j
    simp [addresses]
  have hplace : i = placed.length := by
    have hge : ¬i < placed.length := by
      intro hlt
      have hi := (hat i).2 hfree
      rw [hrow, List.getElem?_append_left (by omega), List.getElem?_map,
        Option.map_eq_some_iff] at hi
      obtain ⟨x, -, hx⟩ := hi
      cases hx
    have hle : ¬placed.length < i := by
      intro hlt
      refine hfirst _ hlt ((hat _).1 ?_)
      rw [hrow, List.getElem?_append_right (by omega), hlen, Nat.sub_self]
      rfl
    omega
  refine ⟨?_, fun _ => hq.start hroom⟩
  show ((c.slots.set i (some e)).map (·.map (·.ip))).rotate c.next = _
  rw [List.map_set, hq.start hroom, List.rotate_zero, List.length_set]
  show c.addresses.set i (some e.ip) = _
  rw [List.take_of_length_le (by rw [List.length_cons]; omega), hrow, hplace, List.reverse_cons,
    List.map_append, List.append_assoc, ← hlen, List.set_append_right _ _ (Nat.le_refl _),
    Nat.sub_self]
  simp

/-- Overwriting the first of a circle and turning on puts the new one last. -/
theorem rotate_set {α : Type} {l : List α} {i : Nat} (hi : i < l.length) (x : α) :
    (l.set i x).rotate ((i + 1) % l.length) = (l.rotate i).tail ++ [x] := by
  have hsplit : l.set i x = (l.take i ++ [x]) ++ l.drop (i + 1) := by
    rw [List.set_eq_take_append_cons_drop, if_pos hi, List.append_assoc]
    rfl
  have hturned : (l.set i x).rotate (i + 1) = l.drop (i + 1) ++ (l.take i ++ [x]) := by
    have hlen : (l.take i ++ [x]).length = i + 1 := by
      simp
      omega
    rw [hsplit, ← hlen, List.rotate_append_length_eq]
  have hbefore : l.rotate i = l[i] :: (l.drop (i + 1) ++ l.take i) := by
    rw [List.rotate_eq_drop_append_take (by omega), List.drop_eq_getElem_cons hi]
    rfl
  calc (l.set i x).rotate ((i + 1) % l.length)
      = (l.set i x).rotate (i + 1) := by rw [← List.length_set (i := i) (a := x), List.rotate_mod]
    _ = (l.rotate i).tail ++ [x] := by
      rw [hturned, hbefore, List.tail_cons, List.append_assoc]

/-- With no slot free the oldest address gives way. -/
theorem Queued.overwrite (hc : c.Sound) (hq : c.Queued placed) (hfull : none ∉ c.slots) :
    Queued { c with
      slots := c.slots.set c.next (some e), next := (c.next + 1) % c.slots.length }
      (e.ip :: placed) := by
  have hturn := hc.turn
  have hlong : c.slots.length ≤ placed.length := by
    have hnone := hq.free_iff.not.1 hfull
    omega
  have hcircle : c.addresses.rotate c.next = (placed.take c.slots.length).reverse.map some := by
    have hqueue := hq.circle
    rwa [show c.slots.length - placed.length = 0 by omega, List.replicate_zero,
      List.append_nil] at hqueue
  have hnext : c.next < c.addresses.length := by
    rw [length_addresses]
    exact hturn
  have hturned := rotate_set hnext (some e.ip)
  rw [length_addresses, hcircle] at hturned
  refine ⟨?_, ?_⟩
  · show ((c.slots.set c.next (some e)).map (·.map (·.ip))).rotate _ = _
    rw [List.map_set, List.length_set]
    refine hturned.trans ?_
    obtain ⟨n, hn⟩ : ∃ n, c.slots.length = n + 1 := ⟨c.slots.length - 1, by omega⟩
    -- what gives way is the one placed longest ago
    have hrest : (placed.take (n + 1)).reverse.tail = (placed.take n).reverse := by
      have hlen : n + 1 ≤ placed.length := by omega
      rw [List.tail_reverse, List.dropLast_eq_take, List.length_take, List.take_take]
      congr 2
      omega
    have hnone : c.slots.length - (e.ip :: placed).length = 0 := by
      rw [List.length_cons]
      omega
    rw [hnone, hn, ← List.map_tail, hrest, List.take_succ_cons, List.reverse_cons, List.map_append,
      List.replicate_zero, List.append_nil]
    rfl
  · rw [List.length_set, List.length_cons]
    omega

/-- **A mapping joins the queue, unless its address is in it.** -/
theorem Insertion.queued (hc : c.Sound) (hq : c.Queued placed) (h : Insertion c e c') :
    c'.Queued (if e.ip ∈ placed.take c.slots.length then placed else e.ip :: placed) := by
  have hnew : c.mapping? e.ip = none → e.ip ∉ placed.take c.slots.length := by
    intro habsent
    rw [← hq.mem_iff]
    rintro ⟨old, hold, hip⟩
    exact mapping?_eq_none_iff.1 habsent old hold hip
  cases h with
  | @refresh i old hslot hip =>
    rw [if_pos (hq.mem_iff.1 ⟨old, List.mem_of_getElem? hslot, hip⟩)]
    exact hq.refresh hslot hip
  | fill habsent hfree hfirst =>
    rw [if_neg (hnew habsent)]
    exact hq.fill hfree hfirst
  | overwrite habsent hfull =>
    rw [if_neg (hnew habsent)]
    exact hq.overwrite hc hfull

end Queue

theorem queued_make (entries : Nat) (timeout : Option Nat) : (make entries timeout).Queued [] := by
  refine ⟨?_, fun _ => rfl⟩
  show ((List.replicate (max entries 1) (none : Option Entry)).map _).rotate 0 = _
  rw [List.map_replicate, List.rotate_zero]
  simp [make]

/-- **Without a timeout the slots are the queue of a first-in first-out map.** -/
theorem queued_after (entries : Nat) (uses : List Use) :
    (after entries none uses).Queued (placements (max entries 1) uses) := by
  -- on the last use, which only an insertion makes a change of the queue
  induction uses using List.reverseRecOn with
  | nil => exact queued_make entries none
  | append_singleton uses u ih =>
    obtain ⟨hlength, htimeout⟩ := frame_after entries none uses
    rw [after_concat, placements_concat]
    rcases (after entries none uses).use_cases u with ⟨ip, mac, now, rfl⟩ | ⟨now, huse, htold⟩
    · have hq := ((after entries none uses).insertion ip mac now).queued (sound_after _ _ uses) ih
      rwa [hlength] at hq
    · have hplace : place (max entries 1) (placements (max entries 1) uses) u =
          placements (max entries 1) uses := by
        cases u with
        | insert ip mac now => simp [Use.told?] at htold
        | lookup | expire => rfl
      rw [huse, hplace, expire_of_no_timeout htimeout]
      exact ih

/-! ## §5. The law. -/

/-- What is found is not older than the timeout allows. -/
theorem found (entries : Nat) (timeout : Option Nat) (uses : List Use)
    (h : ((after entries timeout uses).lookup ip now).2 = some mac) :
    ∃ time, latest? uses ip = some (mac, time) ∧ ∀ lifetime ∈ timeout, now - time < lifetime := by
  obtain ⟨e, he, rfl⟩ := Option.map_eq_some_iff.1 h
  obtain ⟨hslot, rfl⟩ := mem_of_mapping? he
  obtain ⟨hmem, hage⟩ := mem_expire_iff.1 hslot
  rw [(frame_after entries timeout uses).2] at hage
  exact ⟨e.updated, latest_of_mem entries timeout uses e hmem, hage⟩

/-- **A cache is a bounded map**, whatever it was used for, and whatever the clock said.

An address has at most one slot, and there are never more mappings than slots.  What is
found is the latest mapping of the address, of an age below the timeout if there is one.
If there is none, the cache is a first-in first-out map: found are exactly the addresses
that were placed last, as many as there are slots, and an address is placed when it is
remembered while it is not found. -/
theorem sound_bounded_map (entries : Nat) (timeout : Option Nat) (uses : List Use) :
    let c := after entries timeout uses
    let queue := after entries none uses
    let placed := placements (max entries 1) uses
    (∀ (i j : Nat) (e f : Entry), c.slots[i]? = some (some e) → c.slots[j]? = some (some f) →
      e.ip = f.ip → i = j) ∧
    c.size ≤ max entries 1 ∧
    (∀ ip now mac, (c.lookup ip now).2 = some mac →
      ∃ time, latest? uses ip = some (mac, time) ∧
        ∀ lifetime ∈ timeout, now - time < lifetime) ∧
    (∀ ip now, (queue.lookup ip now).2.isSome ↔ ip ∈ placed.take (max entries 1)) ∧
    (∀ ip now, (queue.lookup ip now).2 =
      if ip ∈ placed.take (max entries 1) then (latest? uses ip).map (·.1) else none) ∧
    ∀ ip mac now, placements (max entries 1) (uses ++ [.insert ip mac now]) =
      if (queue.lookup ip now).2.isSome then placed else ip :: placed := by
  intro c queue placed
  have hfound : ∀ ip now, (queue.lookup ip now).2.isSome ↔ ip ∈ placed.take (max entries 1) := by
    intro ip now
    obtain ⟨hlength, htimeout⟩ := frame_after entries none uses
    rw [← hlength, ← (queued_after entries uses).mem_iff, lookup_snd,
      expire_of_no_timeout htimeout, Option.isSome_map, Option.isSome_iff_exists]
    exact exists_congr fun e => (sound_after entries none uses).mapping?_eq_some_iff
  refine ⟨fun i j e f => (sound_after entries timeout uses).single, ?_, fun ip now mac => ?_,
    hfound, fun ip now => ?_, fun ip mac now => ?_⟩
  · rw [← (frame_after entries timeout uses).1]
    exact size_le_length c
  · exact found entries timeout uses
  · by_cases hmem : ip ∈ placed.take (max entries 1)
    · obtain ⟨mac, hmac⟩ := Option.isSome_iff_exists.1 ((hfound ip now).2 hmem)
      obtain ⟨time, hlatest, -⟩ := found entries none uses hmac
      rw [if_pos hmem, hmac, hlatest]
      rfl
    · rw [if_neg hmem, ← Option.not_isSome_iff_eq_none, hfound]
      exact hmem
  · rw [placements_concat]
    exact if_congr (hfound ip now).symm rfl rfl

/-- Two slots: the first address gives way to the third, although it was confirmed again
after the second was placed. -/
example :
    let told (n : UInt8) (now : Nat) : Use := .insert ⟨10, 0, 0, n⟩ ⟨2, 0, 0, 0, 0, n⟩ now
    let uses := [told 1 0, told 2 1, told 1 2, told 3 3]
    placements 2 uses = [⟨10, 0, 0, 3⟩, ⟨10, 0, 0, 2⟩, ⟨10, 0, 0, 1⟩] ∧
      ((after 2 none uses).lookup ⟨10, 0, 0, 1⟩ 4).2 = none ∧
      ((after 2 none uses).lookup ⟨10, 0, 0, 2⟩ 4).2 = some ⟨2, 0, 0, 0, 0, 2⟩ := by decide

end NetBoard.Arp.Cache
