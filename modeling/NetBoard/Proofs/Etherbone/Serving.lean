/-
  NetBoard.Proofs.Etherbone.Serving
  ─────────────────────────────────
  **THE ACCESSES OF A RECORD.**

  Words of a record become accesses one by one, accesses run on the bus one by
  one, and the last read of a record completes its answer.  Put end to end
  these parts do what running the record at once does, and they leave nothing
  behind: no result waits when the last access has run.

  Main statements:

      served_writes  — the accesses of the first half write all its words
      served_reads   — those of the second half read, and answer once
      served_record  — the accesses of a record execute it
-/
import NetBoard.Proofs.Etherbone.Interpreter

namespace NetBoard.Etherbone

/-! ## §1. Accesses and their results. -/

/-- The accesses that words complete, from a state of the receiver on. -/
def Receiver.walk (shape : Shape) : Receiver → List UInt32 → List Access
  | _, [] => []
  | r, word :: words =>
    (r.next shape word).2.toList ++ Receiver.walk shape (r.next shape word).1 words

/-- The octets of the record that answers the reads with these results. -/
def answerOctets (results : List Access) : Bytes :=
  let words := (results.head?.map (·.returnTo)).toList ++ results.map (·.data)
  recordOctets ((results.head?.map (·.byteEnable)).getD 0) (words.length - 1) ++ wordOctets words

/-- What is left when accesses have run. -/
structure Served where
  bus : Sram
  /-- The results of reads without an answer. -/
  results : List Access
  /-- The records that answer finished reads. -/
  answers : List Bytes
  deriving Repr, DecidableEq

/-- Run accesses, after results of the same record. -/
def served (bus : Sram) (results : List Access) : List Access → Served
  | [] => ⟨bus, results, []⟩
  | a :: rest =>
    match a.run bus with
    | (bus, none) => served bus results rest
    | (bus, some result) =>
      if result.last then
        let left := served bus [] rest
        { left with answers := answerOctets (results ++ [result]) :: left.answers }
      else served bus (results ++ [result]) rest

/-! ## §2. The two halves of a record. -/

/-- The accesses of the first half write its words, from the `k`-th on. -/
theorem served_writes (shape : Shape) (base : UInt32) (bus : Sram) (results : List Access) (k : Nat)
    {data : List UInt32} (hne : data ≠ []) (hlen : k + data.length = shape.writes.toNat)
    (rest : List UInt32) :
    served bus results (Receiver.walk shape (.writes base k) (data ++ rest)) =
      served ((data.zipIdx k).foldl (fun m (word, i) =>
          m.write ((base >>> 2) + UInt32.ofNat i) word (shape.byteEnable &&& 0x0f)) bus) results
        (Receiver.walk shape (if shape.reads ≠ 0 then .returnAddress else .idle) rest) := by
  induction data generalizing k bus with
  | nil => exact absurd rfl hne
  | cons word data ih =>
    rw [List.length_cons] at hlen
    rw [List.cons_append, Receiver.walk, List.zipIdx_cons, List.foldl_cons]
    by_cases hlast : data = []
    · -- the last word of the half ends it
      subst hlast
      have hk : (k + 1 == shape.writes.toNat) = true := by
        rw [beq_iff_eq]
        exact hlen
      unfold Receiver.next
      dsimp only
      rw [hk]
      rfl
    · have hpos : 0 < data.length := List.length_pos_iff.mpr hlast
      have hk : (k + 1 == shape.writes.toNat) = false := by
        rw [beq_eq_false_iff_ne]
        omega
      unfold Receiver.next
      dsimp only
      rw [hk]
      exact ih _ (k + 1) hlast (by omega)

/-- The accesses of the second half read at its addresses, from the `k`-th on,
and their results answer the record. -/
theorem served_reads (shape : Shape) (returnTo : UInt32) (bus : Sram) {results : List Access} (k : Nat)
    (hresults : ∀ r ∈ results, r.returnTo = returnTo ∧ r.byteEnable = shape.byteEnable)
    {addresses : List UInt32} (hne : addresses ≠ [])
    (hlen : k + addresses.length = shape.reads.toNat) :
    served bus results (Receiver.walk shape (.reads returnTo k) addresses) =
      ⟨bus, [], [recordOctets shape.byteEnable (results.length + addresses.length) ++
        wordOctets (returnTo :: (results.map (·.data) ++ addresses.map fun (a : UInt32) =>
          bus.read (a >>> 2) (shape.byteEnable &&& 0x0f)))]⟩ := by
  induction addresses generalizing k results with
  | nil => exact absurd rfl hne
  | cons address addresses ih =>
    rw [List.length_cons] at hlen
    let result (last : Bool) : Access :=
      { isWrite := true, word := address >>> 2
        data := bus.read (address >>> 2) (shape.byteEnable &&& 0x0f)
        returnTo, byteEnable := shape.byteEnable, count := shape.reads, last }
    rw [Receiver.walk]
    by_cases hlast : addresses = []
    · -- the last read completes the answer
      subst hlast
      have hk : (k + 1 == shape.reads.toNat) = true := by
        rw [beq_iff_eq]
        exact hlen
      have hoctets : answerOctets (results ++ [result true]) =
          recordOctets shape.byteEnable (results.length + 1) ++
            wordOctets (returnTo :: (results.map (·.data) ++ [(result true).data])) := by
        unfold answerOctets
        cases results with
        | nil => rfl
        | cons r results =>
          obtain ⟨hreturn, henable⟩ := hresults r (List.mem_cons_self ..)
          simp [hreturn, henable]
      unfold Receiver.next
      dsimp only
      rw [hk]
      show (⟨bus, [], [answerOctets (results ++ [result true])]⟩ : Served) = _
      rw [hoctets]
      rfl
    · have hpos : 0 < addresses.length := List.length_pos_iff.mpr hlast
      have hk : (k + 1 == shape.reads.toNat) = false := by
        rw [beq_eq_false_iff_ne]
        omega
      have hmore : ∀ r ∈ results ++ [result false],
          r.returnTo = returnTo ∧ r.byteEnable = shape.byteEnable := by
        intro r hr
        rcases List.mem_append.mp hr with hr | hr
        · exact hresults r hr
        · obtain rfl := List.mem_singleton.mp hr
          exact ⟨rfl, rfl⟩
      unfold Receiver.next
      dsimp only
      rw [hk]
      show served bus (results ++ [result false])
        (Receiver.walk shape (.reads returnTo (k + 1)) addresses) = _
      rw [ih (k + 1) hmore hlast (by omega)]
      simp [result, Nat.add_assoc, Nat.add_comm 1]

/-! ## §3. Whole records. -/

theorem words_eq_half (shape : Shape) : shape.words = half shape.writes + half shape.reads := rfl

theorem half_pos {count : UInt8} (h : count ≠ 0) :
    half count = 1 + count.toNat ∧ 0 < count.toNat := by
  unfold half
  rw [if_neg h]
  have hne : count.toNat ≠ 0 := fun h₀ => h (UInt8.toNat_inj.mp h₀)
  omega

/-- Only a half without an access has no words. -/
theorem half_eq_zero_iff {count : UInt8} : half count = 0 ↔ count = 0 := by
  by_cases hcount : count = 0
  · subst hcount
    exact iff_of_true rfl rfl
  · obtain ⟨hhalf, -⟩ := half_pos hcount
    exact iff_of_false (by omega) hcount

/-- The second half, from the state that waits for its return address. -/
theorem served_second {shape : Shape} {r : Receiver} (bus : Sram) {words : List UInt32}
    (hlen : words.length = half shape.reads)
    (hr : ∀ word, shape.reads ≠ 0 → r.next shape word = (.reads word 0, none)) :
    served bus [] (Receiver.walk shape r words) =
      ⟨bus, [], answersOf shape (readAll bus (shape.byteEnable &&& 0x0f) words)⟩ := by
  cases words with
  | nil => rfl
  | cons returnTo addresses =>
    rw [List.length_cons] at hlen
    have hreads : shape.reads ≠ 0 := mt half_eq_zero_iff.2 (by omega)
    obtain ⟨hhalf, hpos⟩ := half_pos hreads
    have hne : addresses ≠ [] := by
      intro h
      rw [h, List.length_nil] at hlen
      omega
    rw [Receiver.walk, hr returnTo hreads]
    show served bus [] (Receiver.walk shape (.reads returnTo 0) addresses) = _
    rw [served_reads shape returnTo bus 0 (by simp) hne (by omega)]
    simp [answersOf, readAll]

/-- The accesses of a record execute it, and leave nothing behind. -/
theorem served_record (shape : Shape) (bus : Sram) {words : List UInt32}
    (hlen : words.length = shape.words) :
    served bus [] (Receiver.walk shape .idle words) =
      ⟨(execute bus shape words).1, [], answersOf shape (execute bus shape words).2⟩ := by
  have hhalves := words_eq_half shape
  unfold execute
  dsimp only
  by_cases hwrites : shape.writes = 0
  · have hzero : half shape.writes = 0 := half_eq_zero_iff.2 hwrites
    rw [hzero, List.take_zero, List.drop_zero, served_second bus (by omega)]
    · rfl
    · intro word hreads
      unfold Receiver.next
      simp [hwrites, hreads]
  · obtain ⟨hhalf, hpos⟩ := half_pos hwrites
    obtain ⟨base, rest, rfl⟩ : ∃ base rest, words = base :: rest := by
      cases words with
      | nil => rw [List.length_nil] at hlen; omega
      | cons base rest => exact ⟨base, rest, rfl⟩
    rw [List.length_cons] at hlen
    -- the words to be written, and those of the second half
    let data := rest.take shape.writes.toNat
    let second := rest.drop shape.writes.toNat
    have hdata : data.length = shape.writes.toNat := by
      rw [List.length_take]
      omega
    have hsecond : second.length = half shape.reads := by
      rw [List.length_drop]
      omega
    have hcut : rest = data ++ second := (List.take_append_drop _ _).symm
    have htake : (base :: rest).take (half shape.writes) = base :: data := by
      rw [hhalf, Nat.add_comm, List.take_succ_cons]
    have hdrop : (base :: rest).drop (half shape.writes) = second := by
      rw [hhalf, Nat.add_comm, List.drop_succ_cons]
    have hnext : Receiver.idle.next shape base = (.writes base 0, none) := by
      unfold Receiver.next
      simp [hwrites]
    rw [htake, hdrop, Receiver.walk, hnext]
    show served bus [] (Receiver.walk shape (.writes base 0) rest) = _
    rw [hcut, served_writes shape base bus [] 0 (List.length_pos_iff.mp (by omega)) (by omega),
      served_second _ hsecond]
    · rfl
    · intro word hreads
      rw [if_pos hreads]
      rfl

end NetBoard.Etherbone
