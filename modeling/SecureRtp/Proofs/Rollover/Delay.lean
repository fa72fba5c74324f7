import SecureRtp.Proofs.Rollover.Window

/-!
# `SecureRtp.Proofs.Rollover.Delay`: packets that arrive late

No packet is lost, and the packets arrive in their order but for some that are
late. `arrivals` is the order of arrival for a list of delays: a packet with
the delay `k` lets the `k` packets behind it pass. A delay of zero is a packet
in its place.

The steps of such an order reach back by a delay. Forward they reach further
than that: from a packet with the delay `k` the next step goes to the packet
`k + 1` further on, or `k + 2` when that one is late itself
(`isChain_arrivals`). So delays up to the limit make steps that the counter
does not follow, and a limit `D` is not a tolerance for `D` packets.

`Missed` names the steps at fault, and there are three of them. `slip_of_delay`
says that no other step slips, and each of these loses one round.

* `value_run_arrivals`: how far the counter is behind after any packet, and
  that it is right throughout if and only if no step of the order is missed;
  delays of two less than the limit are safe.
* `not_value_run_arrivals`: with the default limit of a hundred, one packet
  that is late by a hundred leaves the counter behind.
-/

set_option autoImplicit false

namespace SecureRtp

/-! ### Orders of arrival -/

/-- The order in which the packets from `m` on arrive. Each delay is that of
the next packet which no earlier one has been passed by. -/
def arrivals : Int → List Nat → List Int
  | _, [] => []
  | m, delay :: delays =>
    (List.range' 1 delay).map (fun n : Nat => m + n) ++ m :: arrivals (m + delay + 1) delays

/-- The first packet to arrive is the first one of the stream or, if that is
late, the second. -/
theorem head?_arrivals (m : Int) (delays : List Nat) :
    ∀ i ∈ (arrivals m delays).head?, m ≤ i ∧ i ≤ m + 1 := by
  intro i hi
  cases delays with
  | nil => simp [arrivals] at hi
  | cons delay delays =>
      -- Only whether the first packet is late matters, and not by how much.
      cases delay with
      | zero =>
          obtain rfl : m = i := by simpa [arrivals] using hi
          omega
      | succ k =>
          obtain rfl : m + 1 = i := by simpa [arrivals, List.range'_succ] using hi
          omega

/-- The steps of an order of arrival go back by a delay at most, and forward by
two more than a delay. -/
theorem isChain_arrivals (limit : Nat) (m : Int) (delays : List Nat)
    (hdelays : ∀ delay ∈ delays, delay ≤ limit) :
    (arrivals m delays).IsChain fun i j => -(limit : Int) ≤ j - i ∧ j - i ≤ limit + 2 := by
  induction delays generalizing m with
  | nil => exact List.isChain_nil
  | cons delay delays ih =>
      have hdelay : delay ≤ limit := hdelays delay List.mem_cons_self
      have hrest := ih (m + delay + 1) fun k hk => hdelays k (List.mem_cons_of_mem _ hk)
      refine List.isChain_append.mpr ⟨?_, ?_, ?_⟩
      · -- The packets that pass the late one, in their own order.
        refine (List.isChain_map _).mpr ((List.isChain_range' 1 delay 1).imp ?_)
        intro a b hb
        omega
      · -- From the late packet to what follows.
        refine List.isChain_cons.mpr ⟨?_, hrest⟩
        intro j hj
        have hhead := head?_arrivals _ _ j hj
        omega
      · -- Back from the last of those that passed.
        intro x hx y hy
        obtain rfl : m = y := by simpa using hy
        obtain ⟨n, hn, rfl⟩ := List.mem_map.mp (List.mem_of_mem_getLast? hx)
        have hbound := List.mem_range'_1.mp hn
        omega

/-! ### Missed steps -/

/-- The step from the packet `i` to the packet `j` crosses the seam, or comes
near it, in a way that the counter with the limit `D` takes for another one:

- it lands behind the seam on a number that is no longer low;
- it goes from the number below the high ones to the number one;
- it goes from the highest low number to the lowest high one, which takes the
  limit 21845. -/
def Missed (maxDisorder : UInt16) (i j : Int) : Prop :=
  65536 + (maxDisorder.toNat : Int) ≤ i % 65536 + (j - i) ∨
  (i % 65536 = 65535 - maxDisorder.toNat ∧ j - i = maxDisorder.toNat + 2) ∨
  (maxDisorder.toNat = 21845 ∧ i % 65536 = maxDisorder.toNat - 1 ∧
    j - i = maxDisorder.toNat + 2)

instance (maxDisorder : UInt16) (i j : Int) : Decidable (Missed maxDisorder i j) :=
  inferInstanceAs (Decidable (_ ∨ _))

/-- The number of missed steps in an order of arrival. -/
def misses (maxDisorder : UInt16) : List Int → Nat
  | i :: j :: rest =>
    (if Missed maxDisorder i j then 1 else 0) + misses maxDisorder (j :: rest)
  | _ => 0

/-- Among the steps that delays up to the limit make, the missed ones lose a
round each, and the others none. -/
theorem slip_of_delay {maxDisorder : UInt16} (hlow : 1 ≤ maxDisorder.toNat)
    (hhigh : maxDisorder.toNat ≤ 21845) {i j : Int}
    (hstep : -(maxDisorder.toNat : Int) ≤ j - i ∧ j - i ≤ maxDisorder.toNat + 2) :
    slip maxDisorder i j = if Missed maxDisorder i j then 1 else 0 := by
  obtain ⟨hback, hforth⟩ := hstep
  -- What is left on either side is linear in the limit, the step and the place of `i`.
  by_cases hmissed : Missed maxDisorder i j
  · rw [if_pos hmissed]
    rw [Missed] at hmissed
    rcases slip_cases maxDisorder i j with h | h | h | h | h <;> omega
  · rw [if_neg hmissed]
    rw [Missed] at hmissed
    rcases slip_cases maxDisorder i j with h | h | h | h | h <;> omega

/-- The missed steps are counted from the front, step by step. -/
theorem misses_eq_countP (maxDisorder : UInt16) (indices : List Int) :
    misses maxDisorder indices
      = (indices.zip indices.tail).countP fun step => Missed maxDisorder step.1 step.2 := by
  induction indices with
  | nil => rfl
  | cons i rest ih =>
      cases rest with
      | nil => rfl
      | cons j rest =>
          rw [misses, ih, Nat.add_comm]
          simp [List.countP_cons]

/-- The sum of the slips is the number of the missed steps. -/
theorem totalSlip_eq_misses {maxDisorder : UInt16} (hlow : 1 ≤ maxDisorder.toNat)
    (hhigh : maxDisorder.toNat ≤ 21845) {indices : List Int}
    (hsteps : indices.IsChain fun i j =>
      -(maxDisorder.toNat : Int) ≤ j - i ∧ j - i ≤ maxDisorder.toNat + 2) :
    totalSlip maxDisorder indices = misses maxDisorder indices := by
  rw [misses_eq_countP]
  exact totalSlip_eq_countP (hsteps.imp fun _ _ => slip_of_delay hlow hhigh)

/-- One packet more at the end adds the last step. -/
theorem misses_concat (maxDisorder : UInt16) (before : List Int) (i j : Int) :
    misses maxDisorder (before ++ [i] ++ [j])
      = misses maxDisorder (before ++ [i]) + if Missed maxDisorder i j then 1 else 0 := by
  induction before with
  | nil => simp [misses]
  | cons k before ih =>
      -- The step at the end is counted last, behind all steps of the list before.
      cases before with
      | nil =>
          show misses maxDisorder [k, i, j] = misses maxDisorder [k, i] + _
          simp only [misses]
          omega
      | cons l before =>
          simp only [List.cons_append, misses] at ih ⊢
          rw [ih, Nat.add_assoc]

/-- No step is missed if none is counted. -/
theorem misses_eq_zero_iff (maxDisorder : UInt16) (indices : List Int) :
    misses maxDisorder indices = 0 ↔ indices.IsChain fun i j => ¬ Missed maxDisorder i j := by
  induction indices with
  | nil => simp [misses]
  | cons i rest ih =>
      cases rest with
      | nil => simp [misses]
      | cons j rest =>
          rw [misses, List.isChain_cons_cons, ← ih, Nat.add_eq_zero_iff]
          simp

/-- A count of misses that is a multiple of `2 ^ 32` after each packet is zero
throughout, because it grows by one at a time. -/
theorem misses_eq_zero_of_prefixes (maxDisorder : UInt16) (indices : List Int)
    (h : ∀ before i, before ++ [i] <+: indices →
      misses maxDisorder (before ++ [i]) % 2 ^ 32 = 0) :
    misses maxDisorder indices = 0 := by
  -- From the end of the list: nothing is counted before the last packet, and its step adds
  -- one at most, too little for another multiple.
  induction indices using List.reverseRecOn with
  | nil => rfl
  | append_singleton before j ih =>
      have hbefore := ih fun b i hb => h b i (hb.trans (List.prefix_append before [j]))
      have hlast := h before j (List.prefix_refl _)
      obtain rfl | ⟨b, i, rfl⟩ := List.eq_nil_or_concat' before
      · rfl
      · rw [misses_concat, hbefore] at hlast ⊢
        by_cases hmissed : Missed maxDisorder i j
        · rw [if_pos hmissed] at hlast
          omega
        · rw [if_neg hmissed]

/-- Delays of two less than the limit make steps within reach, and none of
those is missed. -/
theorem not_missed_of_small_delays (maxDisorder : UInt16) (m : Int) (delays : List Nat)
    (hsmall : ∀ delay ∈ delays, delay + 2 ≤ maxDisorder.toNat) :
    (arrivals m delays).IsChain fun i j => ¬ Missed maxDisorder i j := by
  cases delays with
  | nil => exact List.isChain_nil
  | cons delay delays =>
      have hroom : delay + 2 ≤ maxDisorder.toNat := hsmall delay List.mem_cons_self
      have hsteps := isChain_arrivals (maxDisorder.toNat - 2) m (delay :: delays)
        fun k hk => Nat.le_sub_of_add_le (hsmall k hk)
      -- A step that is missed is longer than the limit, and these are not.
      refine hsteps.imp fun i j hstep hmissed => ?_
      rw [Missed] at hmissed
      omega

/-- Packets that are late by the limit at most. After every packet the counter
is behind by the number of the steps missed so far. So it is right throughout
exactly when the order of arrival has no missed step, and that is sure when
every delay is smaller than the limit by two. -/
theorem value_run_arrivals (maxDisorder : UInt16) (hlow : 1 ≤ maxDisorder.toNat)
    (hhigh : maxDisorder.toNat ≤ 21845) (m : Int) (delays : List Nat)
    (hdelays : ∀ delay ∈ delays, delay ≤ maxDisorder.toNat)
    (hfirst : ∀ i ∈ (arrivals m delays).head?, 0 ≤ i ∧ i < 65536) :
    ∃ fresh, RolloverCounter.new maxDisorder = .ok fresh ∧
      (∀ before i, before ++ [i] <+: arrivals m delays →
        ((fresh.run ((before ++ [i]).map sequenceOf)).value.toNat : Int)
          = (roundOf i - misses maxDisorder (before ++ [i])) % 2 ^ 32) ∧
      ((∀ before i, before ++ [i] <+: arrivals m delays →
          ((fresh.run ((before ++ [i]).map sequenceOf)).value.toNat : Int)
            = roundOf i % 2 ^ 32) ↔
        (arrivals m delays).IsChain fun i j => ¬ Missed maxDisorder i j) ∧
      ((∀ delay ∈ delays, delay + 2 ≤ maxDisorder.toNat) →
        (arrivals m delays).IsChain fun i j => ¬ Missed maxDisorder i j) := by
  have hlimit : maxDisorder < 0x8000 := by
    rw [UInt16.lt_iff_toNat_lt]
    show maxDisorder.toNat < 32768
    omega
  have hsteps := isChain_arrivals maxDisorder.toNat m delays hdelays
  obtain ⟨fresh, hfresh, hvalue, hlast, hmax⟩ := RolloverCounter.exists_new hlimit
  refine ⟨fresh, hfresh, ?_⟩
  -- The first part, from which the other two follow by counting misses.
  have hbehind : ∀ before i, before ++ [i] <+: arrivals m delays →
      ((fresh.run ((before ++ [i]).map sequenceOf)).value.toNat : Int)
        = (roundOf i - misses maxDisorder (before ++ [i])) % 2 ^ 32 := by
    intro before i hprefix
    have hhead : ∀ first ∈ (before ++ [i]).head?, roundOf first = 0 := by
      intro first hmem
      obtain ⟨rest, hrest⟩ := hprefix
      refine (roundOf_eq_zero_iff first).mpr (hfirst first ?_)
      rw [← hrest, List.head?_append, Option.mem_def.mp hmem]
      rfl
    have hpart := List.IsChain.prefix hsteps hprefix
    have hrun := RolloverCounter.tracks_run_fresh hlast hvalue hhead
    rw [hmax, totalSlip_eq_misses hlow hhigh hpart] at hrun
    exact hrun.value
  refine ⟨hbehind, ⟨?_, ?_⟩, not_missed_of_small_delays maxDisorder m delays⟩
  · intro hright
    refine (misses_eq_zero_iff _ _).mp (misses_eq_zero_of_prefixes _ _ ?_)
    intro before i hprefix
    have hvalues := (hright before i hprefix).symm.trans (hbehind before i hprefix)
    omega
  · intro hchain before i hprefix
    have hpart := List.IsChain.prefix hchain hprefix
    have hnone := (misses_eq_zero_iff _ _).mpr hpart
    have hvalue := hbehind before i hprefix
    rw [hnone] at hvalue
    simpa using hvalue

/-- The default limit, and one packet that is late by a hundred, the last one of
its round. When the packet behind it arrives, the counter is behind by one. -/
theorem value_run_arrivals_default :
    (∀ delay ∈ [0, 100, 0], delay ≤ RolloverCounter.defaultMaxDisorder.toNat) ∧
    ∃ fresh, RolloverCounter.new RolloverCounter.defaultMaxDisorder = .ok fresh ∧
      ((fresh.run ((arrivals 65534 [0, 100, 0]).map sequenceOf)).value.toNat : Int)
        = (roundOf 65636 - 1) % 2 ^ 32 := by
  refine ⟨by decide, ?_⟩
  obtain ⟨fresh, hfresh, hbehind, -⟩ := value_run_arrivals RolloverCounter.defaultMaxDisorder
    (by decide) (by decide) 65534 [0, 100, 0] (by decide) (by decide)
  refine ⟨fresh, hfresh, ?_⟩
  exact hbehind (arrivals 65534 [0, 100]) 65636 (by decide)

/-- A limit is no tolerance for as many packets: with the default one, packets
that are late by no more leave the counter wrong. -/
theorem not_value_run_arrivals :
    ¬ ∀ (maxDisorder : UInt16) (m : Int) (delays : List Nat),
      1 ≤ maxDisorder.toNat → maxDisorder.toNat ≤ 21845 → 0 ≤ m → m < 65536 →
      (∀ delay ∈ delays, delay ≤ maxDisorder.toNat) →
      (∀ i ∈ (arrivals m delays).head?, 0 ≤ i ∧ i < 65536) →
      ∀ fresh, RolloverCounter.new maxDisorder = .ok fresh →
        ∀ before i, before ++ [i] <+: arrivals m delays →
          ((fresh.run ((before ++ [i]).map sequenceOf)).value.toNat : Int)
            = roundOf i % 2 ^ 32 := by
  intro h
  -- The packet 65535 arrives behind the packet 65635, and the packet 65636 after both.
  have hwrong := h RolloverCounter.defaultMaxDisorder 65534 [0, 100, 0] (by decide) (by decide)
    (by decide) (by decide) (by decide) (by decide)
    ⟨0, none, RolloverCounter.defaultMaxDisorder⟩ rfl (arrivals 65534 [0, 100]) 65636 (by decide)
  exact absurd hwrong (by decide)

end SecureRtp
