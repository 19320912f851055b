/-
  NetBoard.Proofs.Arp.Retries
  ───────────────────────────
  **HOW PERSISTENT A RESOLVER IS.**

  The count of requests and the deadline are set when a request is built, one
  phase after it was decided on, and between the two the slot for frames may
  be taken for any time; a message comes before a deadline that has passed.
  The work on each lookup is kept on a page of its own.  The invariant relates
  the page of the latest lookup to the phase, the count and the deadline, and
  as long as the clock does not run backwards every transition keeps it.

  Main definitions:

      Page, Book        — what was done for each lookup, and when
      Page.Disciplined  — requests are spaced and limited, and none follows the answer
      Page.Stands       — the invariant: what the page says in each phase
      Journal           — a chronicle with its book

  Main statements:

      Page.Disciplined.concat  — which deeds keep the discipline
      Book.Kept.advance        — every transition keeps the book
      Journal.run_kept         — so does every run
      Journal.retries_limited  — what is done for the lookups in any run
-/
import NetBoard.Proofs.Arp.Deeds
import NetBoard.Proofs.Arp.Provenance

namespace NetBoard.Arp

/-! ## §1. Pages. -/

/-- What was done from one lookup to the next. -/
structure Page where
  /-- The address that is looked up; none before the first lookup. -/
  ip : Option Ipv4
  /-- The deeds with their times, the oldest first. -/
  deeds : List (Nat × Deed) := []
  deriving Repr, DecidableEq

namespace Page

/-- The times at which requests were built. -/
def requests (deeds : List (Nat × Deed)) : List Nat :=
  deeds.filterMap fun (time, deed) =>
    match deed with
    | .asked _ => some time
    | _ => none

/-- The answer is there after these deeds. -/
structure Settles (p : Parameters) (before : List (Nat × Deed)) (now : Nat) (a : Answer)
    (cached : Bool) : Prop where
  /-- From the cache without a request. -/
  remembered : cached = true → a.mac ≠ none ∧ requests before = []
  /-- Otherwise the address is that of a reply. -/
  learned : cached = false → ∀ mac, a.mac = some mac → ∃ time, (time, .heard a.ip mac) ∈ before
  /-- It fails after the last request, once its time is over, and no reply has come. -/
  failed : a.mac = none → (requests before).length = max 1 p.maxRequests ∧
    (∀ time ∈ requests before, time + p.timeout ≤ now) ∧
    ∀ time ip mac, (time, .heard ip mac) ∈ before → ip ≠ a.ip

/-- **The discipline of one lookup.** -/
structure Disciplined (p : Parameters) (page : Page) : Prop where
  asked : ∀ time ip, (time, .asked ip) ∈ page.deeds → page.ip = some ip
  answered : ∀ time a cached, (time, .answered a cached) ∈ page.deeds → page.ip = some a.ip
  spaced : (requests page.deeds).Pairwise fun earlier later => earlier + p.timeout ≤ later
  limited : (requests page.deeds).length ≤ max 1 p.maxRequests
  /-- With the answer the lookup is over: only replies are still heard. -/
  ended : ∀ before now a cached after, page.deeds = before ++ (now, .answered a cached) :: after →
    Settles p before now a cached ∧ ∀ deed ∈ after, ∃ ip mac, deed.2 = .heard ip mac

/-- One more deed. -/
def note (page : Page) (now : Nat) (deed : Deed) : Page :=
  { page with deeds := page.deeds ++ [(now, deed)] }

/-- Nothing is wrong with a blank page. -/
theorem disciplined_blank (p : Parameters) (ip : Option Ipv4) :
    (⟨ip, []⟩ : Page).Disciplined p := by
  refine ⟨nofun, nofun, List.Pairwise.nil, Nat.zero_le _, ?_⟩
  intro before time a cached after hsplit
  cases before <;> cases hsplit

/-- There is no answer yet. -/
def Open (page : Page) : Prop := ∀ time a cached, (time, .answered a cached) ∉ page.deeds

/-- There is an answer. -/
def Closed (page : Page) : Prop := ∃ time a cached, (time, .answered a cached) ∈ page.deeds

variable {p : Parameters} {page : Page} {now : Nat}

/-- An answer on a page with one more deed is that deed, or was there before. -/
theorem split_concat {α : Type} {xs before after : List α} {x y : α}
    (h : xs ++ [y] = before ++ x :: after) :
    (after = [] ∧ before = xs ∧ x = y) ∨ ∃ rest, after = rest ++ [y] ∧ xs = before ++ x :: rest := by
  rcases List.eq_nil_or_concat after with rfl | ⟨rest, z, rfl⟩
  · obtain ⟨hxs, hy⟩ := List.append_inj' h rfl
    exact .inl ⟨rfl, hxs.symm, (List.singleton_inj.1 hy).symm⟩
  · rw [List.concat_eq_append, ← List.cons_append, ← List.append_assoc] at h
    obtain ⟨hxs, hy⟩ := List.append_inj' h rfl
    rw [List.concat_eq_append, List.singleton_inj.1 hy]
    exact .inr ⟨rest, rfl, hxs⟩

theorem requests_concat (deeds : List (Nat × Deed)) (now : Nat) (deed : Deed) :
    requests (deeds ++ [(now, deed)]) = requests deeds ++ requests [(now, deed)] :=
  List.filterMap_append

theorem mem_note {d : Nat × Deed} {deed : Deed} :
    d ∈ (page.note now deed).deeds ↔ d ∈ page.deeds ∨ d = (now, deed) := by
  simp [note]

/-- What the discipline demands of the next deed: a request has its time and its
number, an answer settles the lookup, and neither comes after an answer. -/
def Permits (p : Parameters) (page : Page) (now : Nat) : Deed → Prop
  | .taken _ => False
  | .heard _ _ => True
  | .asked ip => page.Open ∧ page.ip = some ip ∧
    (∀ time ∈ requests page.deeds, time + p.timeout ≤ now) ∧
    (requests page.deeds).length < max 1 p.maxRequests
  | .answered a cached => page.Open ∧ page.ip = some a.ip ∧ Settles p page.deeds now a cached

/-- **Such a deed keeps the discipline.** -/
theorem Disciplined.concat {deed : Deed} (h : page.Disciplined p) (hp : page.Permits p now deed) :
    (page.note now deed).Disciplined p := by
  refine
    { asked := ?_
      answered := ?_
      spaced := ?_
      limited := ?_
      ended := ?_ }
  · intro time ip hmem
    rcases mem_note.1 hmem with hold | hnew
    · exact h.asked time ip hold
    · cases hnew
      exact hp.2.1
  · intro time a cached hmem
    rcases mem_note.1 hmem with hold | hnew
    · exact h.answered time a cached hold
    · cases hnew
      exact hp.2.1
  · rw [note, requests_concat, List.pairwise_append]
    refine ⟨h.spaced, ?_, ?_⟩
    · cases deed <;> simp [requests]
    · intro earlier hearlier later hlater
      cases deed with
      | asked ip =>
        rw [List.mem_singleton.1 hlater]
        exact hp.2.2.1 earlier hearlier
      | _ => cases hlater
  · rw [note, requests_concat, List.length_append]
    cases deed with
    | asked ip => exact hp.2.2.2
    | _ => exact h.limited
  · intro before time a cached after hsplit
    rcases split_concat hsplit with ⟨rfl, rfl, hlast⟩ | ⟨rest, rfl, hrest⟩
    · cases hlast
      exact ⟨hp.2.2, nofun⟩
    · obtain ⟨hsettles, hquiet⟩ := h.ended before time a cached rest hrest
      have hclosed : ¬ page.Open := by
        intro hopen
        refine hopen time a cached ?_
        rw [hrest]
        exact List.mem_append_right _ (List.mem_cons_self ..)
      refine ⟨hsettles, ?_⟩
      intro d hd
      rcases List.mem_append.1 hd with hold | hnew
      · exact hquiet d hold
      · rw [List.mem_singleton.1 hnew]
        -- behind an answer there can only be a reply
        cases deed with
        | taken ip => exact hp.elim
        | heard ip mac => exact ⟨ip, mac, rfl⟩
        | asked ip => exact absurd hp.1 hclosed
        | answered answer cached => exact absurd hp.1 hclosed

/-! ## §2. The invariant. -/

section Invariant

variable (page : Page)

/-- No lookup is in progress. -/
def Done : Prop := page.ip = none ∨ page.Closed

/-- No reply has come from the address. -/
def Silent (ip : Ipv4) : Prop := ∀ time mac, (time, .heard ip mac) ∉ page.deeds

/-- The lookup is in progress, and the next request may be built from `limit` on. -/
structure Pursues (p : Parameters) (target : Ipv4) (count limit : Nat) : Prop where
  ip : page.ip = some target
  unanswered : page.Open
  built : (requests page.deeds).length = count
  few : count ≤ max 1 p.maxRequests
  due : ∀ time ∈ requests page.deeds, time + p.timeout ≤ limit

variable (f : Station.Footing)

/-- Either no lookup is in progress, or a request is outstanding and no reply has come. -/
def Waits : Prop :=
  match f.deadline with
  | none => page.Done
  | some deadline =>
    0 < f.requests ∧ page.Pursues f.parameters f.target f.requests deadline ∧ page.Silent f.target

/-- **The invariant**: what the page says in each phase, at the time of the latest step. -/
def Stands (clock : Nat) : Prop :=
  match f.phase with
  | .idle | .sendReply _ _ => page.Waits f
  -- the reply that is checked is the only one that may be from the address
  | .checkRequest ip mac =>
    ∃ deadline, f.deadline = some deadline ∧ 0 < f.requests ∧
      page.Pursues f.parameters f.target f.requests deadline ∧
      (ip ≠ f.target → page.Silent f.target) ∧ ∃ time, (time, .heard ip mac) ∈ page.deeds
  | .updateTable ip mac =>
    page.ip = some ip ∧ page.Open ∧ ∃ time, (time, .heard ip mac) ∈ page.deeds
  | .checkTable =>
    f.deadline = none ∧ page.Pursues f.parameters f.target 0 clock ∧ page.Silent f.target ∧
      f.requests = 0
  | .sendRequest =>
    f.requests < max 1 f.parameters.maxRequests ∧
      page.Pursues f.parameters f.target f.requests clock ∧ page.Silent f.target
  | .presentResponse _ => f.deadline = none ∧ page.Done

end Invariant

variable {target : Ipv4} {count limit clock : Nat} {f : Station.Footing}

/-- What was due is due later. -/
theorem Pursues.mono (h : page.Pursues p target count limit) (hle : limit ≤ now) :
    page.Pursues p target count now :=
  { h with due := fun time htime => Nat.le_trans (h.due time htime) hle }

theorem Stands.mono (h : page.Stands f clock) (hle : clock ≤ now) : page.Stands f now := by
  unfold Stands at h ⊢
  cases hphase : f.phase with
  | checkTable =>
    rw [hphase] at h
    obtain ⟨hfree, hpursues, hrest⟩ := h
    exact ⟨hfree, hpursues.mono hle, hrest⟩
  | sendRequest =>
    rw [hphase] at h
    obtain ⟨hless, hpursues, hsilent⟩ := h
    exact ⟨hless, hpursues.mono hle, hsilent⟩
  | _ =>
    rw [hphase] at h
    exact h

/-- An idle machine without a deadline has no lookup in progress. -/
theorem Stands.done (h : page.Stands f clock) (hphase : f.phase = .idle)
    (hfree : f.deadline = none) : page.Done := by
  unfold Stands Waits at h
  rwa [hphase, hfree] at h

/-- An idle machine with a deadline has a request outstanding. -/
theorem Stands.pursues (h : page.Stands f clock) (hphase : f.phase = .idle) {deadline : Nat}
    (hwaits : f.deadline = some deadline) :
    0 < f.requests ∧ page.Pursues f.parameters f.target f.requests deadline ∧
      page.Silent f.target := by
  unfold Stands Waits at h
  rwa [hphase, hwaits] at h

/-- A reply does not end the pursuit by itself. -/
theorem Pursues.hear (h : page.Pursues p target count limit) (ip : Ipv4) (mac : MacAddress) :
    (page.note now (.heard ip mac)).Pursues p target count limit := by
  have hrequests : requests (page.note now (.heard ip mac)).deeds = requests page.deeds := by
    rw [note, requests_concat]
    exact List.append_nil _
  refine
    { ip := h.ip
      unanswered := ?_
      built := by rw [hrequests]; exact h.built
      few := h.few
      due := by rw [hrequests]; exact h.due }
  intro time a cached hmem
  rcases mem_note.1 hmem with hold | hnew
  · exact h.unanswered time a cached hold
  · cases hnew

/-- A request starts the time again. -/
theorem Pursues.ask (h : page.Pursues p target count limit) (hle : limit ≤ now)
    (hless : count < max 1 p.maxRequests) :
    (page.note now (.asked target)).Pursues p target (count + 1) (now + p.timeout) := by
  have hrequests : requests (page.note now (.asked target)).deeds =
      requests page.deeds ++ [now] := by
    rw [note, requests_concat]
    rfl
  refine
    { ip := h.ip
      unanswered := ?_
      built := ?_
      few := hless
      due := ?_ }
  · intro time a cached hmem
    rcases mem_note.1 hmem with hold | hnew
    · exact h.unanswered time a cached hold
    · cases hnew
  · rw [hrequests, List.length_append, h.built]
    rfl
  · intro time htime
    rw [hrequests] at htime
    rcases List.mem_append.1 htime with hold | hnew
    · have hdue := h.due time hold
      omega
    · exact Nat.le_of_eq (by rw [List.mem_singleton.1 hnew])

/-- A reply from another address leaves the one in question silent. -/
theorem Silent.hear (h : page.Silent target) {ip : Ipv4} (hother : ip ≠ target) (mac : MacAddress) :
    (page.note now (.heard ip mac)).Silent target := by
  intro time reporter hmem
  rcases mem_note.1 hmem with hold | hnew
  · exact h time reporter hold
  · obtain ⟨-, hip, -⟩ : time = now ∧ target = ip ∧ reporter = mac := by simpa using hnew
    exact hother hip.symm

/-- A request is no reply. -/
theorem Silent.ask (h : page.Silent target) (ip : Ipv4) :
    (page.note now (.asked ip)).Silent target := by
  intro time mac hmem
  rcases mem_note.1 hmem with hold | hnew
  · exact h time mac hold
  · cases hnew

/-- The reply that matches settles the lookup. -/
theorem settles_of_heard {ip : Ipv4} {mac : MacAddress}
    (hheard : ∃ time, (time, .heard ip mac) ∈ page.deeds) :
    Settles p page.deeds now ⟨ip, some mac⟩ false := by
  refine ⟨nofun, ?_, nofun⟩
  intro _ reporter hmac
  cases hmac
  exact hheard

/-- So does the cache, before the first request. -/
theorem Pursues.settles_remembered (h : page.Pursues p target 0 limit) (mac : MacAddress) :
    Settles p page.deeds now ⟨target, some mac⟩ true :=
  ⟨fun _ => ⟨nofun, List.eq_nil_of_length_eq_zero h.built⟩, nofun, nofun⟩

/-- And so does the end of the time for the last request. -/
theorem Pursues.settles_failed (h : page.Pursues p target count limit) (hle : limit ≤ now)
    (hpos : 0 < count) (hmost : p.maxRequests ≤ count) (hsilent : page.Silent target) :
    Settles p page.deeds now ⟨target, none⟩ false := by
  refine ⟨nofun, nofun, fun _ => ⟨?_, (h.mono hle).due, ?_⟩⟩
  · -- a request was built before, even if none is allowed
    have hfew := h.few
    rw [h.built]
    omega
  · rintro time ip mac hmem rfl
    exact hsilent time mac hmem

theorem waits_of_done (hfree : f.deadline = none) (h : page.Done) : page.Waits f := by
  unfold Waits
  rwa [hfree]

theorem waits_of_pursues {deadline : Nat} (hwaits : f.deadline = some deadline)
    (hpos : 0 < f.requests) (hpursues : page.Pursues f.parameters f.target f.requests deadline)
    (hsilent : page.Silent f.target) : page.Waits f := by
  unfold Waits
  rw [hwaits]
  exact ⟨hpos, hpursues, hsilent⟩

theorem Done.note (h : page.Done) (deed : Deed) : (page.note now deed).Done := by
  rcases h with hnone | ⟨time, a, cached, hmem⟩
  · exact .inl hnone
  · exact .inr ⟨time, a, cached, mem_note.2 (.inl hmem)⟩

theorem done_answered (a : Answer) (cached : Bool) : (page.note now (.answered a cached)).Done :=
  .inr ⟨now, a, cached, mem_note.2 (.inr rfl)⟩

end Page

/-! ## §3. Books. -/

/-- The pages of all lookups so far. -/
structure Book where
  /-- The page of the latest one. -/
  page : Page := ⟨none, []⟩
  /-- The pages before, the latest first. -/
  earlier : List Page := []
  deriving Repr, DecidableEq

namespace Book

/-- A lookup begins a page; any other deed is noted on the page there is. -/
def note (now : Nat) (b : Book) (deed : Deed) : Book :=
  match deed with
  | .taken ip => { page := ⟨some ip, []⟩, earlier := b.page :: b.earlier }
  | _ => { b with page := b.page.note now deed }

/-- The book after the deeds of a step. -/
def noteAll (now : Nat) (b : Book) (deeds : List Deed) : Book := deeds.foldl (note now) b

/-- The pages, the oldest first. -/
def pages (b : Book) : List Page := (b.page :: b.earlier).reverse

/-- Every page is in order, and only the last lookup may be in progress. -/
structure Kept (clock : Nat) (f : Station.Footing) (b : Book) : Prop where
  page : b.page.Disciplined f.parameters
  stands : b.page.Stands f clock
  earlier : ∀ page ∈ b.earlier, page.Disciplined f.parameters ∧ page.Done

variable {b : Book} {clock now : Nat} {f f' : Station.Footing} {new : List Deed}

/-- The pages before stay in order. -/
theorem Kept.turn {c : Book} (hk : b.Kept clock f) (hparameters : f'.parameters = f.parameters)
    (hearlier : c.earlier = b.earlier) (hpage : c.page.Disciplined f.parameters)
    (hstands : c.page.Stands f' now) : c.Kept now f' := by
  rw [← hparameters] at hpage
  refine ⟨hpage, hstands, ?_⟩
  rw [hparameters, hearlier]
  exact hk.earlier

/-- A lookup begins a page once the lookup before has its answer. -/
theorem Kept.begin (hk : b.Kept clock f) (hdone : b.page.Done) (ip : Ipv4) :
    (b.note now (.taken ip)).Kept now
      { f with phase := .checkTable, target := ip, requests := 0, deadline := none } := by
  have hpursues : (⟨some ip, []⟩ : Page).Pursues f.parameters ip 0 now :=
    ⟨rfl, nofun, rfl, Nat.zero_le _, nofun⟩
  refine ⟨Page.disciplined_blank .., ⟨rfl, hpursues, nofun, rfl⟩, ?_⟩
  intro page hmem
  rcases List.mem_cons.1 hmem with rfl | hold
  · exact ⟨hk.page, hdone⟩
  · exact hk.earlier page hold

/-- **Every transition keeps the book**, as long as the clock does not run backwards. -/
theorem Kept.advance (hk : b.Kept clock f) (hclock : clock ≤ now)
    (h : Station.Advances now f new f') : (b.noteAll now new).Kept now f' := by
  have hpage := hk.page
  have hstands := hk.stands.mono hclock
  -- what the page says, once the phase is known
  have hphases := hstands
  unfold Page.Stands at hphases
  cases h with
  | waits => exact hk.turn rfl rfl hpage hstands
  | told ip mac hphase =>
    rw [hphase] at hphases
    exact hk.turn rfl rfl hpage hphases
  | replied ip mac hphase =>
    rw [hphase] at hphases
    exact hk.turn rfl rfl hpage hphases
  | ignored ip mac hphase hfree =>
    -- the answer is there already, and a reply may still be heard
    refine hk.turn rfl rfl (hpage.concat trivial) ?_
    unfold Page.Stands
    rw [hphase]
    exact Page.waits_of_done hfree ((hstands.done hphase hfree).note _)
  | heard ip mac hphase hwaits =>
    obtain ⟨deadline, hdeadline⟩ := Option.ne_none_iff_exists'.1 hwaits
    obtain ⟨hpos, hpursues, hsilent⟩ := hstands.pursues hphase hdeadline
    refine hk.turn rfl rfl (hpage.concat trivial)
      ⟨deadline, hdeadline, hpos, hpursues.hear ip mac, ?_⟩
    -- before this reply none had come from the target
    exact ⟨fun hother => hsilent.hear hother mac, now, Page.mem_note.2 (.inr rfl)⟩
  | matched mac hphase =>
    rw [hphase] at hphases
    obtain ⟨deadline, -, -, hpursues, -, hheard⟩ := hphases
    exact hk.turn rfl rfl hpage ⟨hpursues.ip, hpursues.unanswered, hheard⟩
  | mismatched ip mac hphase hother =>
    rw [hphase] at hphases
    obtain ⟨deadline, hdeadline, hpos, hpursues, hsilent, -⟩ := hphases
    exact hk.turn rfl rfl hpage (Page.waits_of_pursues hdeadline hpos hpursues (hsilent hother))
  | learned ip mac hphase =>
    rw [hphase] at hphases
    obtain ⟨hip, hopen, hheard⟩ := hphases
    exact hk.turn rfl rfl (hpage.concat ⟨hopen, hip, Page.settles_of_heard hheard⟩)
      ⟨rfl, Page.done_answered ..⟩
  | gaveUp deadline hphase hwaits hdue hmost =>
    obtain ⟨hpos, hpursues, hsilent⟩ := hstands.pursues hphase hwaits
    have hsettles := hpursues.settles_failed hdue hpos hmost hsilent
    exact hk.turn rfl rfl (hpage.concat ⟨hpursues.unanswered, hpursues.ip, hsettles⟩)
      ⟨rfl, Page.done_answered ..⟩
  | retried deadline hphase hwaits hdue hmore =>
    obtain ⟨-, hpursues, hsilent⟩ := hstands.pursues hphase hwaits
    have hless : f.requests < max 1 f.parameters.maxRequests := by omega
    -- the deadline has passed: from now on the next request is late enough
    exact hk.turn rfl rfl hpage ⟨hless, hpursues.mono hdue, hsilent⟩
  | took ip hphase hfree => exact hk.begin (hstands.done hphase hfree) ip
  | remembered mac hphase =>
    rw [hphase] at hphases
    obtain ⟨hfree, hpursues, -, -⟩ := hphases
    exact hk.turn rfl rfl
      (hpage.concat ⟨hpursues.unanswered, hpursues.ip, hpursues.settles_remembered mac⟩)
      ⟨hfree, Page.done_answered ..⟩
  | missed hphase =>
    rw [hphase] at hphases
    obtain ⟨-, hpursues, hsilent, hzero⟩ := hphases
    have hless : f.requests < max 1 f.parameters.maxRequests := by omega
    rw [← hzero] at hpursues
    exact hk.turn rfl rfl hpage ⟨hless, hpursues, hsilent⟩
  | asked hphase =>
    rw [hphase] at hphases
    obtain ⟨hless, hpursues, hsilent⟩ := hphases
    have hbuilt : (Page.requests b.page.deeds).length < max 1 f.parameters.maxRequests := by
      rw [hpursues.built]
      exact hless
    exact hk.turn rfl rfl
      (hpage.concat ⟨hpursues.unanswered, hpursues.ip, hpursues.due, hbuilt⟩)
      ⟨Nat.succ_pos _, hpursues.ask (Nat.le_refl now) hless, hsilent.ask _⟩
  | presented answer hphase =>
    rw [hphase] at hphases
    obtain ⟨hfree, hdone⟩ := hphases
    exact hk.turn rfl rfl hpage (Page.waits_of_done hfree hdone)

/-- The lookups taken, in order. -/
def lookups (b : Book) : List Ipv4 := b.pages.filterMap (·.ip)

/-- The addresses asked for, in order. -/
def wanted (b : Book) : List Ipv4 :=
  b.pages.flatMap fun page => page.deeds.filterMap fun (_, deed) => deed.wanted?

theorem lookups_note (b : Book) (now : Nat) (deed : Deed) :
    (b.note now deed).lookups = b.lookups ++ deed.taken?.toList := by
  unfold lookups pages
  cases deed with
  | taken ip =>
    show ((⟨some ip, []⟩ :: b.page :: b.earlier).reverse : List Page).filterMap _ = _
    rw [List.reverse_cons, List.filterMap_append]
    rfl
  | _ =>
    show ((b.page.note now _ :: b.earlier).reverse : List Page).filterMap _ = _
    rw [List.reverse_cons, List.reverse_cons, List.filterMap_append, List.filterMap_append]
    exact (List.append_nil _).symm

theorem wanted_note (b : Book) (now : Nat) (deed : Deed) :
    (b.note now deed).wanted = b.wanted ++ deed.wanted?.toList := by
  cases deed <;> simp [wanted, pages, note, Page.note, Deed.wanted?]

/-- A step adds a page for each lookup it takes. -/
theorem lookups_noteAll (now : Nat) (deeds : List Deed) :
    ∀ b : Book, (b.noteAll now deeds).lookups = b.lookups ++ deeds.filterMap Deed.taken? := by
  induction deeds with
  | nil =>
    intro b
    exact (List.append_nil _).symm
  | cons deed deeds ih =>
    intro b
    show ((b.note now deed).noteAll now deeds).lookups = _
    rw [ih, lookups_note, List.append_assoc, List.filterMap_cons]
    cases deed.taken? <;> rfl

/-- It notes each request on the page of its lookup. -/
theorem wanted_noteAll (now : Nat) (deeds : List Deed) :
    ∀ b : Book, (b.noteAll now deeds).wanted = b.wanted ++ deeds.filterMap Deed.wanted? := by
  induction deeds with
  | nil =>
    intro b
    exact (List.append_nil _).symm
  | cons deed deeds ih =>
    intro b
    show ((b.note now deed).noteAll now deeds).wanted = _
    rw [ih, wanted_note, List.append_assoc, List.filterMap_cons]
    cases deed.wanted? <;> rfl

end Book

/-! ## §4. Journals. -/

/-- A chronicle with its book. -/
structure Journal extends Chronicle where
  book : Book := {}

/-- An event that is no step does not come near the resolver; the asker may add a lookup. -/
theorem Chronicle.next_apart (c : Chronicle) {happening : Happening}
    (hstill : happening.time? = none) :
    (c.next happening).station.resolver = c.station.resolver ∧
      ∀ before : List Ipv4, before ++ c.station.table.lookups.items = c.asked →
        before ++ (c.next happening).station.table.lookups.items = (c.next happening).asked := by
  cases happening with
  | askerGone => exact ⟨rfl, fun _ h => h⟩
  | macGone => exact ⟨rfl, fun _ h => h⟩
  | usual event =>
    unfold next History.next
    cases event with
    | step now => cases hstill
    | frame frame => exact ⟨rfl, fun _ h => h⟩
    | readdress localIp => exact ⟨rfl, fun _ h => h⟩
    | frameTaken =>
      dsimp only
      split <;> exact ⟨rfl, fun _ h => h⟩
    | answerTaken =>
      dsimp only
      split <;> exact ⟨rfl, fun _ h => h⟩
    | lookup ip =>
      dsimp only
      split
      · next lookups hoffer =>
        refine ⟨rfl, fun before h => ?_⟩
        show before ++ lookups.items = c.asked ++ [ip]
        rw [(Pipe.offer_sent hoffer).1, ← List.append_assoc, h]
      · exact ⟨rfl, fun _ h => h⟩

namespace Journal

/-- What one event does; the deeds of a step are noted under its time. -/
def next (width : Nat) (j : Journal) (happening : Happening) : Journal :=
  let c := j.toChronicle.next happening
  { toChronicle := c
    book := match happening.time? with
      | some now => j.book.noteAll now (j.station.deeds (j.station.event? width) c.station)
      | none => j.book }

/-- A run of a new resolver. -/
def run (mac : MacAddress) (parameters : Parameters) (width depth : Nat) (localIp : Ipv4)
    (happenings : List Happening) : Journal :=
  happenings.foldl (next width)
    { station := ⟨.make mac parameters width, .make depth, .make, localIp⟩ }

/-- The journal only watches. -/
theorem toChronicle_run (mac : MacAddress) (parameters : Parameters) (width depth : Nat)
    (localIp : Ipv4) (happenings : List Happening) :
    (run mac parameters width depth localIp happenings).toChronicle =
      .run mac parameters width depth localIp happenings := by
  have hfold : ∀ j : Journal, (happenings.foldl (next width) j).toChronicle =
      happenings.foldl Chronicle.next j.toChronicle := by
    induction happenings with
    | nil =>
      intro j
      rfl
    | cons happening happenings ih =>
      intro j
      exact ih (j.next width happening)
  exact hfold _

/-- **The invariant of a run** whose latest step was made at `clock`. -/
structure Kept (width : Nat) (mac : MacAddress) (parameters : Parameters) (clock : Nat)
    (j : Journal) : Prop where
  book : j.book.Kept clock j.station.footing
  parameters : j.station.resolver.parameters = parameters
  sent : ∃ sent : List Message, j.Vouched width mac sent ∧
    sent.filterMap Message.wanted? = j.book.wanted
  asked : j.book.lookups ++ j.station.table.lookups.items = j.asked

variable {width : Nat} {mac : MacAddress} {parameters : Parameters} {clock now : Nat} {j : Journal}

/-- A step that is made later keeps the journal. -/
theorem next_step (hk : j.Kept width mac parameters clock) (hclock : clock ≤ now) :
    (j.next width (.usual (.step now))).Kept width mac parameters now := by
  obtain ⟨hbook, hparameters, ⟨sent, hv, hwanted⟩, hasked⟩ := hk
  let t := (j.station.step now).state
  obtain ⟨new, hnext, hnew⟩ := Chronicle.next_step hv now
  obtain ⟨hadvances, hitems, -⟩ := Station.step_works hv.built now
  have hbuilt : (j.station.deeds (j.station.event? width) t).filterMap Deed.wanted? =
      j.station.asked t := Station.wanted_deeds
  have htaken : (j.station.deeds (j.station.event? width) t).filterMap Deed.taken? =
      j.station.table.lookups.taken t.table.lookups := Station.taken_deeds
  refine ⟨hbook.advance hclock hadvances, ?_, ⟨sent ++ new, hnext, ?_⟩, ?_⟩
  · exact hadvances.parameters.trans hparameters
  · show _ = (j.book.noteAll now (j.station.deeds (j.station.event? width) t)).wanted
    rw [Book.wanted_noteAll, List.filterMap_append, hwanted, hnew, hbuilt]
  · show (j.book.noteAll now (j.station.deeds (j.station.event? width) t)).lookups ++
      t.table.lookups.items = j.asked
    rw [Book.lookups_noteAll, htaken, List.append_assoc, ← hitems, hasked]

/-- So does any other event. -/
theorem next_still (hk : j.Kept width mac parameters clock) {happening : Happening}
    (hstill : happening.time? = none) :
    (j.next width happening).Kept width mac parameters clock := by
  obtain ⟨hbook, hparameters, ⟨sent, hv, hwanted⟩, hasked⟩ := hk
  obtain ⟨hresolver, hadded⟩ := Chronicle.next_apart j.toChronicle hstill
  have hsame : (j.next width happening).book = j.book := by
    unfold next
    rw [hstill]
  refine ⟨?_, ?_, ⟨sent, Chronicle.next_still hv hstill, ?_⟩, ?_⟩
  · have hfooting : (j.next width happening).station.footing = j.station.footing := by
      unfold Station.footing
      rw [← hresolver]
      rfl
    rw [hsame, hfooting]
    exact hbook
  · exact (congrArg (·.parameters) hresolver).trans hparameters
  · rw [hsame]
    exact hwanted
  · rw [hsame]
    exact hadded _ hasked

/-- A new resolver has taken no lookup. -/
theorem make_kept (mac : MacAddress) (parameters : Parameters) (width depth : Nat)
    (localIp : Ipv4) :
    Kept width mac parameters 0
      { station := ⟨.make mac parameters width, .make depth, .make, localIp⟩ } where
  book := ⟨Page.disciplined_blank .., .inl rfl, nofun⟩
  parameters := rfl
  sent := ⟨[], Chronicle.make_vouched .., rfl⟩
  asked := rfl

/-- **A run whose clock does not run backwards keeps the journal.** -/
theorem run_kept (mac : MacAddress) (parameters : Parameters) (width depth : Nat) (localIp : Ipv4)
    (happenings : List Happening)
    (hclock : (happenings.filterMap Happening.time?).Pairwise (· ≤ ·)) :
    ∃ clock, (run mac parameters width depth localIp happenings).Kept width mac parameters clock := by
  have hrun : ∀ (j : Journal) (clock : Nat), j.Kept width mac parameters clock →
      (∀ time ∈ happenings.filterMap Happening.time?, clock ≤ time) →
      ∃ latest, (happenings.foldl (next width) j).Kept width mac parameters latest := by
    induction happenings with
    | nil =>
      intro j clock hk _
      exact ⟨clock, hk⟩
    | cons happening happenings ih =>
      intro j clock hk hlater
      cases htime : happening.time? with
      | none =>
        rw [List.filterMap_cons_none htime] at hclock hlater
        exact ih hclock _ clock (next_still hk htime) hlater
      | some now =>
        rw [List.filterMap_cons_some htime] at hclock hlater
        obtain ⟨hafter, hrest⟩ := List.pairwise_cons.1 hclock
        have hnext := next_step hk (hlater now (List.mem_cons_self ..))
        rw [← Happening.eq_step htime] at hnext
        exact ih hrest _ now hnext hafter
  exact hrun _ 0 (make_kept ..) (fun _ _ => Nat.zero_le _)

/-- **A resolver asks in its time and number.**

In every run whose clock does not run backwards each lookup that was taken has
a page, and no other address is ever asked for.  On it requests are at least
the timeout apart and no more than allowed, one if none is; what the cache
answers is asked nobody; a lookup fails only after all its requests and the
timeout of the last one, with no reply from the address; and with its answer,
which all lookups but the last have, its last request has been built.  The
requests on the pages are those in the frames that were sent. -/
theorem retries_limited (mac : MacAddress) (parameters : Parameters) (width depth : Nat)
    (localIp : Ipv4) (happenings : List Happening)
    (hclock : (happenings.filterMap Happening.time?).Pairwise (· ≤ ·)) :
    let j := run mac parameters width depth localIp happenings
    let s := j.station
    j.toChronicle = .run mac parameters width depth localIp happenings ∧
    (∀ page ∈ j.book.pages, page.Disciplined parameters) ∧
    (∀ page ∈ j.book.earlier, page.ip = none ∨ page.Closed) ∧
    j.book.lookups ++ s.table.lookups.items = j.asked ∧
    (∃ sent : List Message,
      j.frames <+: sent.map (Message.frame width) ∧
      (s.link.outbound.closed = false → j.frames = sent.map (Message.frame width)) ∧
      (SupportedWidth width → ∀ m ∈ sent, message? width (m.frame width) = some m) ∧
      sent.filterMap Message.wanted? = j.book.wanted) ∧
    ∀ now a, .answered a true ∈ s.deeds (s.event? width) (s.step now).state →
      (s.resolver.cache.lookup a.ip now).2 = a.mac := by
  intro j s
  obtain ⟨clock, hbook, hparameters, ⟨sent, hv, hwanted⟩, hasked⟩ :=
    run_kept mac parameters width depth localIp happenings hclock
  have hfooting : j.station.footing.parameters = parameters := hparameters
  refine ⟨toChronicle_run .., ?_, fun page hpage => (hbook.earlier page hpage).2, hasked,
    ⟨sent, hv.frames, hv.opened, fun hw m _ => message?_frame hw m, hwanted⟩,
    fun now => (Station.step_works hv.built now).cached⟩
  intro page hpage
  rw [← hfooting]
  rcases List.mem_cons.1 (List.mem_reverse.1 hpage) with rfl | hold
  · exact hbook.page
  · exact (hbook.earlier page hold).1

/-- Two requests, the second one late, and a failure; a reply from another
address comes in between. -/
theorem retries_limited_failed :
    let parameters : Parameters := { maxRequests := 2, timeout := 10 }
    let target := Ipv4.ofNat 7
    let reply : Message := ⟨.reply, .ofNat 3, .ofNat 9, .ofNat 1, .ofNat 2⟩
    let happenings : List Happening :=
      [.usual (.lookup target), .usual (.step 0), .usual (.step 1), .usual (.step 2),
       .usual (.frame (reply.frame 4)), .usual (.step 4), .usual (.step 5), .usual (.step 12),
       .usual (.step 15), .usual (.step 24), .usual (.step 25)]
    let j := run (.ofNat 1) parameters 4 1 (.ofNat 2) happenings
    (happenings.filterMap Happening.time?).Pairwise (· ≤ ·) ∧
      j.book.page.Disciplined parameters ∧
      j.book.page = ⟨some target, [(2, .asked target), (4, .heard (.ofNat 9) (.ofNat 3)),
        (15, .asked target), (25, .answered ⟨target, none⟩ false)]⟩ := by
  intro parameters target reply happenings j
  have hclock : (happenings.filterMap Happening.time?).Pairwise (· ≤ ·) := by decide
  have hlimited := retries_limited (.ofNat 1) parameters 4 1 (.ofNat 2) happenings hclock
  refine ⟨hclock, hlimited.2.1 _ (List.mem_reverse.2 (List.mem_cons_self ..)), ?_⟩
  decide +kernel

end Journal
end NetBoard.Arp
