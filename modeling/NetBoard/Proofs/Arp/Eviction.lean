/-
  NetBoard.Proofs.Arp.Eviction
  ────────────────────────────
  **WHICH MAPPING GIVES WAY.**

  A mapping that is remembered takes a slot that is marked free before it
  takes one in turn.  Slots of expired mappings are marked free by a lookup,
  not by the insertion itself.  So a mapping that expired since the last
  lookup keeps its slot, and the turn may fall on one that is still good.
  Were the slots freed at the same moment, none that is still good would give
  way as long as there is another slot.

  Main definition:

      Displaces  — a mapping takes the slot of this one

  Main statements:

      Insertion.mapping?_of_ne  — what is left of the other mappings
      Sound.mapping?_expire     — what is left of a mapping in time
      live_evicted_iff          — when a mapping that is still good is lost
-/
import NetBoard.Proofs.Arp.Cache

namespace NetBoard.Arp.Cache

variable {c c' : Cache} {ip : Ipv4} {mac : MacAddress} {now lifetime : Nat} {e f : Entry}

/-! ## §1. The slot that is taken. -/

/-- To remember a mapping of `ip` takes the slot of this mapping: it has no slot of its
own, none is marked free, and it is the turn of this one. -/
def Displaces (c : Cache) (ip : Ipv4) (e : Entry) : Prop :=
  c.mapping? ip = none ∧ none ∉ c.slots ∧ c.slots[c.next]? = some (some e)

instance (c : Cache) (ip : Ipv4) (e : Entry) : Decidable (c.Displaces ip e) :=
  inferInstanceAs (Decidable (_ ∧ _ ∧ _))

/-- **Of the mappings of other addresses one is lost at most**: the displaced one. -/
theorem Insertion.mapping?_of_ne (hc : c.Sound) (h : Insertion c f c') (he : some e ∈ c.slots)
    (hne : e.ip ≠ f.ip) :
    c'.mapping? e.ip = if c.Displaces f.ip e then none else some e := by
  obtain ⟨i, hi⟩ := List.mem_iff_getElem?.1 he
  -- as long as another slot is taken, the mapping stays in its own
  have hkept : ∀ j, j ≠ i → c'.slots = c.slots.set j (some f) → c'.mapping? e.ip = some e := by
    intro j hji hslots
    refine (h.sound hc).mapping?_eq_some_iff.2 ⟨?_, rfl⟩
    rw [hslots]
    refine List.mem_of_getElem? (i := i) ?_
    rw [List.getElem?_set_ne hji, hi]
  cases h with
  | @refresh j old hslot hip =>
    have hdisplaces : ¬c.Displaces f.ip e := by
      rintro ⟨habsent, -, -⟩
      exact mapping?_eq_none_iff.1 habsent old (List.mem_of_getElem? hslot) hip
    rw [if_neg hdisplaces]
    refine hkept j ?_ rfl
    rintro rfl
    obtain rfl := Option.some.inj (Option.some.inj (hi.symm.trans hslot))
    exact hne hip
  | @fill j _ hfree _ =>
    have hdisplaces : ¬c.Displaces f.ip e := fun hd => hd.2.1 (List.mem_of_getElem? hfree)
    rw [if_neg hdisplaces]
    refine hkept j ?_ rfl
    rintro rfl
    cases hi.symm.trans hfree
  | overwrite habsent hfull =>
    by_cases hturn : c.next = i
    · -- the slot is overwritten, and no other one has the address
      have hdisplaces : c.Displaces f.ip e := ⟨habsent, hfull, hturn ▸ hi⟩
      rw [if_pos hdisplaces, mapping?_eq_none_iff]
      intro g hg hip
      obtain ⟨j, hj⟩ := List.mem_iff_getElem?.1 hg
      by_cases hij : c.next = j
      · rw [← hij, List.getElem?_set_self hc.turn] at hj
        obtain rfl := Option.some.inj (Option.some.inj hj)
        exact hne hip.symm
      · rw [List.getElem?_set_ne hij] at hj
        exact hij (hturn.trans (hc.single hi hj hip.symm))
    · have hdisplaces : ¬c.Displaces f.ip e := by
        rintro ⟨-, -, hslot⟩
        exact hturn (hc.single hslot hi rfl)
      rw [if_neg hdisplaces]
      exact hkept c.next hturn rfl

/-! ## §2. What expires. -/

/-- A mapping is left as long as its age is below the timeout. -/
theorem Sound.mapping?_expire (hc : c.Sound) (htimeout : c.timeout = some lifetime) :
    (c.expire now).mapping? ip = (c.mapping? ip).filter fun e => now - e.updated < lifetime := by
  ext e
  rw [(hc.expire now).mapping?_eq_some_iff, mem_expire_iff, Option.filter_eq_some_iff,
    hc.mapping?_eq_some_iff, htimeout]
  simp only [Option.mem_def, Option.some.injEq, forall_eq', decide_eq_true_eq]
  exact and_right_comm

/-- A slot whose mapping has expired is marked free. -/
theorem mem_expire_of_dead (htimeout : c.timeout = some lifetime) (hslot : some f ∈ c.slots)
    (hdead : lifetime ≤ now - f.updated) : none ∈ (c.expire now).slots := by
  unfold expire
  rw [htimeout]
  exact List.mem_map.2 ⟨some f, hslot, by simp [Entry.expired, hdead]⟩

/-- A slot that is free stays so. -/
theorem mem_expire_of_free (hfree : none ∈ c.slots) : none ∈ (c.expire now).slots := by
  unfold expire
  cases c.timeout with
  | none => exact hfree
  | some lifetime => exact List.mem_map.2 ⟨none, hfree, rfl⟩

/-! ## §3. What is lost. -/

/-- A mapping that is still good is found after another one was remembered, unless it
was displaced. -/
theorem Sound.lookup_insert (hc : c.Sound) (htimeout : c.timeout = some lifetime)
    (he : some e ∈ c.slots) (hlive : now - e.updated < lifetime) (hne : e.ip ≠ ip) :
    ((c.insert ip mac now).lookup e.ip now).2 =
      if c.Displaces ip e then none else some e.mac := by
  have hins := c.insertion ip mac now
  rw [lookup_snd, (hins.sound hc).mapping?_expire (hins.timeout.trans htimeout),
    hins.mapping?_of_ne hc he hne]
  by_cases hd : c.Displaces ip e
  · rw [if_pos hd, if_pos hd]
    rfl
  · rw [if_neg hd, if_neg hd, Option.filter_some, if_pos (decide_eq_true hlive)]
    rfl

/-- **A mapping that is still good is lost to another address exactly if it is
displaced**: the other one has no slot, no slot is marked free, and it is the turn of
this one, whether there are expired mappings in other slots or not.

If the slots of expired mappings are freed first, at the same moment, the good ones are
all found as long as there was a slot free or expired. -/
theorem live_evicted_iff (entries lifetime : Nat) (uses : List Use) (ip : Ipv4)
    (mac : MacAddress) (now : Nat) {e : Entry}
    (he : some e ∈ (after entries (some lifetime) uses).slots)
    (hlive : now - e.updated < lifetime) (hne : e.ip ≠ ip) :
    let c := after entries (some lifetime) uses
    (((c.insert ip mac now).lookup e.ip now).2 =
      if c.mapping? ip = none ∧ none ∉ c.slots ∧ c.slots[c.next]? = some (some e) then none
      else some e.mac) ∧
    ((none ∈ c.slots ∨ ∃ f, some f ∈ c.slots ∧ lifetime ≤ now - f.updated) →
      (((c.expire now).insert ip mac now).lookup e.ip now).2 = some e.mac) := by
  intro c
  have hc := sound_after entries (some lifetime) uses
  obtain ⟨-, htimeout⟩ := frame_after entries (some lifetime) uses
  refine ⟨hc.lookup_insert htimeout he hlive hne, fun hspare => ?_⟩
  have hfree : none ∈ (c.expire now).slots := by
    rcases hspare with hfree | ⟨f, hf, hdead⟩
    · exact mem_expire_of_free hfree
    · exact mem_expire_of_dead htimeout hf hdead
  have hkept : some e ∈ (c.expire now).slots := by
    rw [mem_expire_iff, htimeout]
    refine ⟨he, ?_⟩
    rintro _ ⟨⟩
    exact hlive
  rw [(hc.expire now).lookup_insert ((timeout_expire c now).trans htimeout) hkept hlive hne]
  exact if_neg fun hd => hd.2.1 hfree

/-- Two slots and a timeout of ten: the second mapping has expired when the fourth
address comes, and the third gives way, which is eight old. -/
theorem live_evicted_early :
    let third : Entry := ⟨⟨10, 0, 0, 3⟩, ⟨2, 0, 0, 0, 0, 3⟩, 11⟩
    let fourth : Ipv4 := ⟨10, 0, 0, 4⟩
    let mac : MacAddress := ⟨2, 0, 0, 0, 0, 4⟩
    let c := after 2 (some 10)
      [.insert ⟨10, 0, 0, 1⟩ ⟨2, 0, 0, 0, 0, 1⟩ 0, .insert ⟨10, 0, 0, 2⟩ ⟨2, 0, 0, 0, 0, 2⟩ 9,
        .lookup third.ip 10, .insert third.ip third.mac third.updated, .lookup fourth 18]
    some third ∈ c.slots ∧ 19 - third.updated < 10 ∧ third.ip ≠ fourth ∧
      (∃ f, some f ∈ c.slots ∧ 10 ≤ 19 - f.updated) ∧
      ((c.insert fourth mac 19).lookup third.ip 19).2 = none ∧
      (((c.expire 19).insert fourth mac 19).lookup third.ip 19).2 = some third.mac := by
  intro third fourth mac c
  have hheld : some third ∈ c.slots := by decide
  have hlive : 19 - third.updated < 10 := by decide
  have hne : third.ip ≠ fourth := by decide
  have hdead : ∃ f, some f ∈ c.slots ∧ 10 ≤ 19 - f.updated :=
    ⟨⟨⟨10, 0, 0, 2⟩, ⟨2, 0, 0, 0, 0, 2⟩, 9⟩, by decide, by decide⟩
  obtain ⟨hlost, hkept⟩ := live_evicted_iff 2 10 _ fourth mac 19 hheld hlive hne
  refine ⟨hheld, hlive, hne, hdead, hlost.trans (if_pos ?_), hkept (.inr hdead)⟩
  decide

end NetBoard.Arp.Cache
