import Mathlib.Data.List.Induction
import Mathlib.Order.Nat

/-!
# The rate limiter of the process

`try_acquire` counts the requests of a fixed window; the first call at or after the end of a window
opens the next one. An interval that is not aligned with the windows can meet two of them, and no
more: `rateLimiter_bounded`. The argument numbers the windows. Two calls whose windows are not
neighbours have a whole window between them, so a shorter interval sees two window numbers at most.
-/

namespace Mipsorcu

/-! ### The limiter -/

/-- `FixedWindowRateLimiter` without its lock: times are nanoseconds, and a sum past `lastInstant`
is not an `Instant`. -/
structure FixedWindowRateLimiter where
  maxRequests : ℕ
  window : ℕ
  lastInstant : ℕ
  deriving DecidableEq

/-- The end of the window, and what is left in it. -/
structure FixedWindowRateLimiterState where
  resetAt : ℕ
  remaining : ℕ
  deriving DecidableEq

namespace FixedWindowRateLimiter

variable (l : FixedWindowRateLimiter)

/-- `now.checked_add(window)`. -/
def checkedAdd (now : ℕ) : Option ℕ :=
  if now + l.window ≤ l.lastInstant then some (now + l.window) else none

/-- A full window that begins now: the state of a new limiter, and the state after a reset. -/
def new (now : ℕ) : FixedWindowRateLimiterState where
  resetAt := (l.checkedAdd now).getD now
  remaining := l.maxRequests

/-- `try_acquire`. Nothing under the lock can panic, so that the lock is never poisoned and the call
never ends in `Err(())`. -/
def tryAcquire (now : ℕ) (s : FixedWindowRateLimiterState) : FixedWindowRateLimiterState × Bool :=
  let s := if s.resetAt ≤ now then l.new now else s
  if s.remaining = 0 then (s, false) else ({ s with remaining := s.remaining - 1 }, true)

/-- Where nothing remains, taking one away changes nothing. -/
theorem tryAcquire_eq (now : ℕ) (s : FixedWindowRateLimiterState) :
    l.tryAcquire now s =
      let s := if s.resetAt ≤ now then l.new now else s
      ({ s with remaining := s.remaining - 1 }, s.remaining != 0) := by
  unfold tryAcquire
  generalize (if s.resetAt ≤ now then l.new now else s) = s
  obtain ⟨resetAt, _ | remaining⟩ := s <;> rfl

theorem resetAt_new {now : ℕ} (h : now + l.window ≤ l.lastInstant) :
    (l.new now).resetAt = now + l.window := by
  simp [new, checkedAdd, h]

end FixedWindowRateLimiter

/-! ### The calls of a process -/

/-- A call: its time, the number of resets up to it, and its answer. -/
structure RateLimitCall where
  time : ℕ
  windowNo : ℕ
  granted : Bool
  deriving DecidableEq

/-- The limiter with its history: the creation and the resets, and the calls. -/
structure RateLimiterRun where
  state : FixedWindowRateLimiterState
  resets : List ℕ
  calls : List RateLimitCall
  deriving DecidableEq

namespace RateLimiterRun

variable (l : FixedWindowRateLimiter)

/-- A new limiter. -/
def start (created : ℕ) : RateLimiterRun :=
  ⟨l.new created, [created], []⟩

/-- One call, with its answer in the record. -/
def call (r : RateLimiterRun) (now : ℕ) : RateLimiterRun :=
  let answer := l.tryAcquire now r.state
  let resets := if r.state.resetAt ≤ now then r.resets ++ [now] else r.resets
  ⟨answer.1, resets, r.calls ++ [⟨now, resets.length, answer.2⟩]⟩

/-- The calls at the given times, on a limiter created at `created`. -/
def run (created : ℕ) (times : List ℕ) : RateLimiterRun :=
  times.foldl (call l) (start l created)

end RateLimiterRun

/-! ### Calls in numbered windows -/

/-- A call and a later one: where their windows are not neighbours, a whole window lies between
them. -/
structure RateLimitCall.Before (window : ℕ) (c d : RateLimitCall) : Prop where
  windowNo : c.windowNo ≤ d.windowNo
  apart : c.windowNo + 2 ≤ d.windowNo → c.time + window ≤ d.time

/-- The calls of one window that are granted. -/
def grantedIn (calls : List RateLimitCall) (windowNo : ℕ) : ℕ :=
  calls.countP fun c => c.granted && c.windowNo == windowNo

/-- The calls from `start` to before `stop` that are granted. -/
def grantedBetween (calls : List RateLimitCall) (start stop : ℕ) : ℕ :=
  calls.countP fun c => c.granted && decide (start ≤ c.time ∧ c.time < stop)

theorem grantedIn_append (calls : List RateLimitCall) (c : RateLimitCall) (k : ℕ) :
    grantedIn (calls ++ [c]) k =
      grantedIn calls k + if c.granted && c.windowNo == k then 1 else 0 := by
  rw [grantedIn, List.countP_append, List.countP_singleton, grantedIn]

/-- What is in one of two sets is counted in one of them. -/
theorem countP_le_countP_add_countP {α : Type*} {p q q' : α → Bool} {xs : List α}
    (h : ∀ x ∈ xs, p x = true → q x = true ∨ q' x = true) :
    xs.countP p ≤ xs.countP q + xs.countP q' := by
  induction xs with
  | nil => simp
  | cons x xs ih =>
    have hrest := ih fun y hy => h y (List.mem_cons_of_mem x hy)
    have hx := h x List.mem_cons_self
    simp only [List.countP_cons]
    by_cases hp : p x = true
    · rcases hx hp with hq | hq <;> simp only [hp, hq, if_true] <;> split_ifs <;> omega
    · simp only [hp, if_false, Bool.false_eq_true]
      omega

/-- An interval no longer than a window meets two windows at most. -/
theorem grantedBetween_le {calls : List RateLimitCall} {window maxRequests : ℕ}
    (hbefore : calls.Pairwise (RateLimitCall.Before window))
    (hmax : ∀ k, grantedIn calls k ≤ maxRequests) (start : ℕ) :
    grantedBetween calls start (start + window) ≤ 2 * maxRequests := by
  let inside (c : RateLimitCall) : Bool := decide (start ≤ c.time ∧ c.time < start + window)
  have hinside : (calls.filter inside).Pairwise (RateLimitCall.Before window) := hbefore.filter _
  cases hcalls : calls.filter inside with
  | nil =>
    have hnone : grantedBetween calls start (start + window) = 0 := by
      refine List.countP_eq_zero.mpr fun c hc hgranted => ?_
      have hmem : c ∈ calls.filter inside :=
        List.mem_filter.mpr ⟨hc, (Bool.and_eq_true _ _ ▸ hgranted).2⟩
      rw [hcalls] at hmem
      exact absurd hmem List.not_mem_nil
    omega
  | cons first rest =>
    rw [hcalls] at hinside
    -- the first call of the interval fixes the two windows
    have hfirst : first ∈ calls.filter inside := hcalls ▸ List.mem_cons_self
    have hstart : start ≤ first.time := (of_decide_eq_true (List.mem_filter.mp hfirst).2).1
    have hnumber : ∀ c ∈ calls, inside c = true →
        c.windowNo = first.windowNo ∨ c.windowNo = first.windowNo + 1 := by
      intro c hc hin
      have hend : c.time < start + window := (of_decide_eq_true hin).2
      have hmem : c ∈ first :: rest := hcalls ▸ List.mem_filter.mpr ⟨hc, hin⟩
      rcases List.mem_cons.mp hmem with rfl | hrest
      · exact .inl rfl
      · have horder := List.rel_of_pairwise_cons hinside hrest
        have hle := horder.windowNo
        have hapart := horder.apart
        omega
    have hsum : grantedBetween calls start (start + window) ≤
        grantedIn calls first.windowNo + grantedIn calls (first.windowNo + 1) := by
      refine countP_le_countP_add_countP fun c hc hgranted => ?_
      obtain ⟨hgranted, hin⟩ := Bool.and_eq_true _ _ ▸ hgranted
      rcases hnumber c hc hin with h | h
      · exact .inl (by simp [hgranted, h])
      · exact .inr (by simp [hgranted, h])
    have hfst := hmax first.windowNo
    have hsnd := hmax (first.windowNo + 1)
    omega

namespace RateLimiterRun

/-! ### What every run keeps -/

/-- Where a call lies before the end of the current window: a call of an earlier window is that much
earlier. -/
structure Placed (l : FixedWindowRateLimiter) (r : RateLimiterRun) (last : ℕ) (c : RateLimitCall) :
    Prop where
  windowNo : c.windowNo ≤ r.resets.length
  time : c.time ≤ last
  previous : c.windowNo < r.resets.length → c.time + l.window ≤ r.state.resetAt
  older : c.windowNo + 2 ≤ r.resets.length → c.time + l.window + l.window ≤ r.state.resetAt

/-- The invariant, at a time no call is after: the current window has granted what does not remain
of it, and no window has granted more. -/
structure Inv (l : FixedWindowRateLimiter) (r : RateLimiterRun) (last : ℕ) : Prop where
  lastReset : ∃ reset ∈ r.resets.getLast?, r.state.resetAt = reset + l.window ∧ reset ≤ last
  spaced : r.resets.Pairwise fun reset next => reset + l.window ≤ next
  current : grantedIn r.calls r.resets.length + r.state.remaining = l.maxRequests
  windows : ∀ k, grantedIn r.calls k ≤ l.maxRequests
  placed : ∀ c ∈ r.calls, Placed l r last c
  before : r.calls.Pairwise (RateLimitCall.Before l.window)

variable {l : FixedWindowRateLimiter} {r : RateLimiterRun} {last now : ℕ}

theorem inv_start {created : ℕ} (h : created + l.window ≤ l.lastInstant) :
    Inv l (start l created) created where
  lastReset := ⟨created, rfl, l.resetAt_new h, le_rfl⟩
  spaced := List.pairwise_singleton _ _
  current := Nat.zero_add _
  windows _ := Nat.zero_le _
  placed := by rintro _ ⟨⟩
  before := List.Pairwise.nil

/-- The first half of a call: a new window is opened if the last one has ended. -/
def refresh (l : FixedWindowRateLimiter) (r : RateLimiterRun) (now : ℕ) : RateLimiterRun :=
  if r.state.resetAt ≤ now then ⟨l.new now, r.resets ++ [now], r.calls⟩ else r

/-- The second half of a call: it takes one of the requests that remain, if there is one. -/
def answer (r : RateLimiterRun) (now : ℕ) : RateLimiterRun where
  state := { r.state with remaining := r.state.remaining - 1 }
  resets := r.resets
  calls := r.calls ++ [⟨now, r.resets.length, r.state.remaining != 0⟩]

theorem call_eq : call l r now = answer (refresh l r now) now := by
  unfold call answer refresh
  rw [FixedWindowRateLimiter.tryAcquire_eq]
  by_cases hreset : r.state.resetAt ≤ now <;> simp [hreset]

/-- A window is opened only after the window of the last reset has ended. -/
theorem Inv.spaced_concat (h : Inv l r last) (hends : r.state.resetAt ≤ now) :
    (r.resets ++ [now]).Pairwise fun reset next => reset + l.window ≤ next := by
  obtain ⟨reset, hreset, hresetAt, -⟩ := h.lastReset
  obtain ⟨before, hbefore⟩ := List.getLast?_eq_some_iff.mp hreset
  have hspaced := h.spaced
  refine List.pairwise_append.mpr ⟨hspaced, List.pairwise_singleton _ _, fun a ha b hb => ?_⟩
  obtain rfl := List.mem_singleton.mp hb
  rw [hbefore] at ha hspaced
  rcases List.mem_append.mp ha with ha | ha
  · have hgap := (List.pairwise_append.mp hspaced).2.2 a ha reset (List.mem_singleton.mpr rfl)
    omega
  · obtain rfl := List.mem_singleton.mp ha
    omega

/-- A window that is opened begins with nothing granted. -/
theorem Inv.refresh (h : Inv l r last) (hlast : last ≤ now)
    (hfits : now + l.window ≤ l.lastInstant) : Inv l (refresh l r now) now := by
  obtain ⟨reset, hreset, hresetAt, hle⟩ := h.lastReset
  unfold RateLimiterRun.refresh
  split_ifs with hends
  · have hlength : (r.resets ++ [now]).length = r.resets.length + 1 := List.length_append
    have hnone : grantedIn r.calls (r.resets.length + 1) = 0 := by
      refine List.countP_eq_zero.mpr fun c hc hgranted => ?_
      have hno := (h.placed c hc).windowNo
      simp only [Bool.and_eq_true, beq_iff_eq] at hgranted
      omega
    refine ⟨⟨now, by simp, l.resetAt_new hfits, le_rfl⟩, h.spaced_concat hends, ?_, h.windows,
      fun c hc => ?_, h.before⟩
    · rw [hlength, hnone]
      exact Nat.zero_add _
    · obtain ⟨hno, htime, hprevious, -⟩ := h.placed c hc
      have hend := l.resetAt_new hfits
      refine ⟨?_, ?_, fun h => ?_, fun h => ?_⟩ <;> dsimp only at * <;> omega
  · exact { h with
      lastReset := ⟨reset, hreset, hresetAt, hle.trans hlast⟩
      placed := fun c hc => { h.placed c hc with time := (h.placed c hc).time.trans hlast } }

/-- A call that is granted takes one of the requests that remain. -/
theorem Inv.answer (h : Inv l r now) : Inv l (answer r now) now := by
  obtain ⟨reset, -, hresetAt, hle⟩ := h.lastReset
  have hcurrent := h.current
  -- the call is counted in the window that is running
  have hgranted : ∀ k, grantedIn (r.answer now).calls k = grantedIn r.calls k +
      if r.state.remaining ≠ 0 ∧ r.resets.length = k then 1 else 0 := by
    intro k
    rw [RateLimiterRun.answer, grantedIn_append]
    simp
  refine ⟨h.lastReset, h.spaced, ?_, fun k => ?_, fun c hc => ?_, ?_⟩
  · rw [hgranted]
    change grantedIn r.calls r.resets.length + _ + (r.state.remaining - 1) = _
    split_ifs with hremain
    · omega
    · have hnone : r.state.remaining = 0 := by simpa [RateLimiterRun.answer] using hremain
      omega
  · have hwindow := h.windows k
    rw [hgranted]
    split_ifs with hk
    · obtain ⟨hremain, rfl⟩ := hk
      omega
    · exact hwindow
  · rcases List.mem_append.mp hc with hc | hc
    · exact { h.placed c hc with }
    · obtain rfl := List.mem_singleton.mp hc
      exact ⟨le_rfl, le_rfl, fun hlt => absurd hlt (lt_irrefl _),
        fun hle : r.resets.length + 2 ≤ r.resets.length => by omega⟩
  -- a call two windows earlier is a whole window away
  · refine List.pairwise_append.mpr ⟨h.before, List.pairwise_singleton _ _, fun c hc d hd => ?_⟩
    obtain rfl := List.mem_singleton.mp hd
    obtain ⟨hno, -, -, holder⟩ := h.placed c hc
    refine ⟨hno, fun hapart => ?_⟩
    have hend := holder hapart
    change c.time + l.window ≤ now
    omega

theorem Inv.call (h : Inv l r last) (hlast : last ≤ now) (hfits : now + l.window ≤ l.lastInstant) :
    Inv l (call l r now) now := by
  rw [call_eq]
  exact (h.refresh hlast hfits).answer

/-- The invariant holds after the calls of any times in order. -/
theorem exists_inv_run {created : ℕ} {times : List ℕ} (horder : (created :: times).Pairwise (· ≤ ·))
    (hfits : ∀ t ∈ created :: times, t + l.window ≤ l.lastInstant) :
    ∃ last ∈ created :: times, Inv l (run l created times) last := by
  induction times using List.reverseRecOn with
  | nil => exact ⟨created, List.mem_cons_self, inv_start (hfits created List.mem_cons_self)⟩
  | append_singleton times now ih =>
    rw [← List.cons_append] at horder hfits
    obtain ⟨hbefore, -, hnow⟩ := List.pairwise_append.mp horder
    obtain ⟨last, hmem, hinv⟩ := ih hbefore fun t ht => hfits t (List.mem_append_left _ ht)
    refine ⟨now, by simp, ?_⟩
    rw [run, List.foldl_append]
    exact hinv.call (hnow last hmem now (List.mem_singleton.mpr rfl)) (hfits now (by simp))

end RateLimiterRun

/-- A call at or after the end of a window opens a new one, and is granted if any is. -/
theorem FixedWindowRateLimiter.tryAcquire_of_resetAt_le (l : FixedWindowRateLimiter) {now : ℕ}
    {s : FixedWindowRateLimiterState} (h : s.resetAt ≤ now) (hmax : 0 < l.maxRequests) :
    (l.tryAcquire now s).2 = true := by
  simp [tryAcquire, h, new, hmax.ne']

/-- **The rate limiter is bounded.** For calls at any times in order, in windows of any length: no
window grants more than `maxRequests` calls, consecutive resets are a window apart, an interval of a
window's length sees at most twice `maxRequests` granted, and a call at or after the end of a window
is granted. -/
theorem rateLimiter_bounded (l : FixedWindowRateLimiter) (created : ℕ) (times : List ℕ)
    (horder : (created :: times).Pairwise (· ≤ ·))
    (hfits : ∀ t ∈ created :: times, t + l.window ≤ l.lastInstant) :
    (∀ k, grantedIn (RateLimiterRun.run l created times).calls k ≤ l.maxRequests) ∧
    ((RateLimiterRun.run l created times).resets.Pairwise fun reset next =>
      reset + l.window ≤ next) ∧
    (∀ start, grantedBetween (RateLimiterRun.run l created times).calls start (start + l.window) ≤
      2 * l.maxRequests) ∧
    ∀ now, (RateLimiterRun.run l created times).state.resetAt ≤ now → 0 < l.maxRequests →
      (l.tryAcquire now (RateLimiterRun.run l created times).state).2 = true := by
  obtain ⟨last, -, hinv⟩ := RateLimiterRun.exists_inv_run horder hfits
  exact ⟨hinv.windows, hinv.spaced, grantedBetween_le hinv.before hinv.windows,
    fun now => l.tryAcquire_of_resetAt_le⟩

/-- Two requests each ten nanoseconds: the third request of the first window is refused, and three
of the four requests around its end are granted. -/
theorem rateLimiter_bounded_sample :
    (RateLimiterRun.run ⟨2, 10, 1000⟩ 0 [5, 9, 9, 10, 12, 30]).calls.map (·.granted) =
      [true, true, false, true, true, true] ∧
    grantedBetween (RateLimiterRun.run ⟨2, 10, 1000⟩ 0 [5, 9, 9, 10, 12, 30]).calls 5 15 ≤ 4 :=
  ⟨by decide, (rateLimiter_bounded ⟨2, 10, 1000⟩ 0 [5, 9, 9, 10, 12, 30] (by decide)
    (by decide)).2.2.1 5⟩

end Mipsorcu
