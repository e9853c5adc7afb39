import Mathlib.Data.List.Induction
import SignalChain.Device.Adc

/-!
# Forced failures

A simulated converter is told from outside what to answer with and how many conversions to fail, and
it is read in between. Only what it was told last counts: a new number of failures replaces what was
left of the number before, and a value holds until the next one.

So what a conversion comes to follows from the requests before it (`read_serveAll`). It fails as
long as there were fewer conversions since failures were last asked for than failures asked for,
and otherwise it answers with the value that was set last. Of conversions in a row it is the first
ones that fail (`readTimes_eq`).

## Main definitions and results

* `Adc.Request`, `Adc.serveAll`: requests to a converter, in order.
* `Adc.lastSet`, `Adc.lastCount`, `Adc.readsSince`: what a history of requests says of the next
  conversion.
* `Adc.read_serveAll`, `Adc.readTimes_eq`: a conversion after any requests, and some in a row.
-/

namespace SignalChain.Adc

/-! ### Requests -/

/-- What a converter is asked for, by those who steer it and by those who read it. -/
inductive Request where
  | set (raw : Reading)
  | failNext (count : UInt32)
  | read
  deriving DecidableEq

/-- The value that a request sets. -/
def Request.raw? : Request → Option Reading
  | set raw => some raw
  | failNext _ | read => none

/-- The number of failures that a request asks for. -/
def Request.count? : Request → Option UInt32
  | failNext count => some count
  | set _ | read => none

/-- The converter after a request. -/
def serve (a : Adc) : Request → Adc
  | .set raw => a.set raw
  | .failNext count => a.failNext count
  | .read => a.read.2

/-- The converter after some requests, in order. -/
def serveAll (a : Adc) (rs : List Request) : Adc :=
  rs.foldl serve a

/-- The value that was set last, or the one that the converter started with. -/
def lastSet (initial : Reading) (rs : List Request) : Reading :=
  (rs.filterMap Request.raw?).getLastD initial

/-- How many failures were asked for last. -/
def lastCount (rs : List Request) : Nat :=
  ((rs.filterMap Request.count?).getLastD 0).toNat

/-- How many conversions there were since failures were last asked for. -/
def readsSince (rs : List Request) : Nat :=
  (rs.reverse.takeWhile fun r => r.count? = none).count .read

variable {a : Adc} {initial : Reading} {rs : List Request}

/-! ### One conversion -/

/-- A conversion fails while there are failures left. -/
theorem read_fst (a : Adc) :
    a.read.1 = if 0 < a.failing.toNat then .error .readFailed else .ok a.raw := by
  unfold read
  split
  next hzero => simp [hzero]
  next hpos =>
    have hne : a.failing.toNat ≠ 0 := fun hzero => hpos (UInt32.toNat_inj.mp hzero)
    rw [if_pos (Nat.pos_of_ne_zero hne)]

@[simp]
theorem raw_read (a : Adc) : a.read.2.raw = a.raw := by
  unfold read
  split <;> rfl

/-- A conversion uses up a failure, if one is left. -/
@[simp]
theorem toNat_failing_read (a : Adc) : a.read.2.failing.toNat = a.failing.toNat - 1 := by
  unfold read
  split
  next hzero => simp [hzero]
  next hpos =>
    have hle : (1 : UInt32) ≤ a.failing := by
      rw [UInt32.le_iff_toNat_le]
      exact Nat.pos_of_ne_zero fun hzero => hpos (UInt32.toNat_inj.mp hzero)
    exact UInt32.toNat_sub_of_le _ _ hle

/-! ### Histories -/

theorem serveAll_concat (a : Adc) (r : Request) :
    a.serveAll (rs ++ [r]) = (a.serveAll rs).serve r := by
  rw [serveAll, List.foldl_append]
  rfl

theorem lastSet_concat (r : Request) :
    lastSet initial (rs ++ [r]) = r.raw?.getD (lastSet initial rs) := by
  rw [lastSet, List.filterMap_append]
  cases r <;> simp [Request.raw?, lastSet]

theorem lastCount_concat (r : Request) :
    lastCount (rs ++ [r]) = (r.count?.map (·.toNat)).getD (lastCount rs) := by
  rw [lastCount, List.filterMap_append]
  cases r <;> simp [Request.count?, lastCount]

theorem readsSince_concat (r : Request) :
    readsSince (rs ++ [r]) =
      if r.count? = none then readsSince rs + (if r = .read then 1 else 0) else 0 := by
  rw [readsSince, List.reverse_append]
  cases r <;> simp [Request.count?, readsSince]

/-- A new converter holds the value that was set last, and what the conversions since have left of
the failures that were asked for last. -/
theorem serveAll_fields (initial : Reading) (rs : List Request) :
    (serveAll { raw := initial } rs).raw = lastSet initial rs ∧
      (serveAll { raw := initial } rs).failing.toNat = lastCount rs - readsSince rs := by
  -- on the request that came last
  induction rs using List.reverseRecOn with
  | nil => exact ⟨rfl, rfl⟩
  | append_singleton rs r ih =>
    obtain ⟨hraw, hfailing⟩ := ih
    rw [serveAll_concat, lastSet_concat, lastCount_concat, readsSince_concat]
    cases r with
    | set raw => exact ⟨rfl, hfailing⟩
    | failNext count => exact ⟨hraw, rfl⟩
    | read =>
      refine ⟨(raw_read _).trans hraw, ?_⟩
      show (serveAll { raw := initial } rs).read.2.failing.toNat = _ - (readsSince rs + 1)
      rw [toNat_failing_read, hfailing, Nat.sub_sub]
      rfl

/-- A conversion fails if there were fewer conversions since failures were last asked for than
failures asked for, and answers with the value that was set last if not. -/
theorem read_serveAll (initial : Reading) (rs : List Request) :
    (serveAll { raw := initial } rs).read.1 =
      if readsSince rs < lastCount rs then .error .readFailed else .ok (lastSet initial rs) := by
  obtain ⟨hraw, hfailing⟩ := serveAll_fields initial rs
  rw [read_fst, hraw, hfailing]
  simp only [Nat.sub_pos_iff_lt]

/-! ### Conversions in a row -/

theorem readTimes_succ (a : Adc) (k : Nat) :
    a.readTimes (k + 1) = (a.read.1 :: (a.read.2.readTimes k).1, (a.read.2.readTimes k).2) := rfl

/-- Of conversions in a row the first ones fail, as many as there were failures left. -/
theorem readTimes_eq (a : Adc) (k : Nat) :
    (a.readTimes k).1 =
        (List.range k).map (fun i =>
          if i < a.failing.toNat then .error .readFailed else .ok a.raw) ∧
      (a.readTimes k).2.failing.toNat = a.failing.toNat - k := by
  -- from the first conversion on, which may leave one failure less to the others
  induction k generalizing a with
  | zero => exact ⟨rfl, rfl⟩
  | succ k ih =>
    obtain ⟨houtcomes, hfailing⟩ := ih a.read.2
    simp only [raw_read, toNat_failing_read] at houtcomes hfailing
    rw [readTimes_succ]
    refine ⟨?_, by rw [hfailing, Nat.sub_sub, Nat.add_comm 1]⟩
    rw [houtcomes, List.range_succ_eq_map, List.map_cons, List.map_map, read_fst]
    refine congrArg (_ :: ·) (List.map_congr_left fun i _ => ?_)
    simp only [Function.comp_apply, Nat.lt_sub_iff_add_lt, Nat.succ_eq_add_one]

end SignalChain.Adc
