import ForkAgent.Messages.RateLimiter
import Mathlib.Tactic.Linarith

/-!
# The sliding window of the rate limiter

What is remembered of a key is, of its allowed calls, all that can still be in a window. This links the
pruned lists to the whole history, whichever calls did the pruning.
-/

namespace ForkAgent.Messages

open Effects

/-- When the allowed calls of a key were made. -/
def allowedTimes (key : String) (h : List rateLimiting.Done) : List ℚ :=
  (h.filter fun e => RateLimitCall.allows key e.op e.value).map (·.time)

/-- How many allowed calls of the key were made in the window that ends at a time. -/
def usedAt (key : String) (window s : ℚ) (h : List rateLimiting.Done) : Nat :=
  ((allowedTimes key h).filter fun t => s - window < t ∧ t ≤ s).length

/-- What was asked when, and what was answered. -/
def answered (e : rateLimiting.Done) : ℚ × (call : RateLimitCall) × call.Value := (e.time, ⟨e.op, e.value⟩)

/-- What a sliding window promises of a history of calls. -/
structure SlidingWindow (start : RateLimiter) (h : List rateLimiting.Done) : Prop where
  capped : ∀ key s, usedAt key start.windowSeconds s h ≤ start.maxRequests
  refusals : ∀ h₁ e h₂ key, h = h₁ ++ e :: h₂ → e.op = .isAllowed key →
    RateLimitCall.allows key e.op e.value = false →
    start.maxRequests ≤ usedAt key start.windowSeconds e.time h₁
  remaining : ∀ h₁ t key before (n : Int) after h₂, h = h₁ ++ ⟨t, .getRemaining key, before, n, after⟩ :: h₂ →
    n = start.maxRequests - usedAt key start.windowSeconds t h₁
  alone : ∀ key, ∃ h' s', rateLimiting.Histories start h' s' ∧
    h'.map answered = (h.filter fun e => RateLimitCall.OfKey key e.op).map answered

section Step

variable {limiter limiter' : RateLimiter} {key other : String} {now : ℚ} {call : RateLimitCall}

/-- The timestamps that are remembered of a key. -/
def RateLimiter.timestamps (limiter : RateLimiter) (key : String) : List ℚ :=
  ((limiter.entries key).getD {}).timestamps

@[simp] theorem setEntry_self (entry : Option RateLimitEntry) :
    (limiter.setEntry key entry).entries key = entry := by
  simp [RateLimiter.setEntry]

theorem setEntry_other (hne : key ≠ other) (entry : Option RateLimitEntry) :
    (limiter.setEntry other entry).entries key = limiter.entries key := by
  simp [RateLimiter.setEntry, hne]

/-- The limiters have the same settings and agree on a key. -/
structure SameFor (key : String) (limiter limiter' : RateLimiter) : Prop where
  maxRequests : limiter.maxRequests = limiter'.maxRequests
  windowSeconds : limiter.windowSeconds = limiter'.windowSeconds
  entries : limiter.entries key = limiter'.entries key

theorem SameFor.trans {limiter'' : RateLimiter} (h : SameFor key limiter limiter')
    (h' : SameFor key limiter' limiter'') : SameFor key limiter limiter'' :=
  ⟨h.maxRequests.trans h'.maxRequests, h.windowSeconds.trans h'.windowSeconds, h.entries.trans h'.entries⟩

theorem isAllowed_eq (now : ℚ) (key : String) :
    limiter.isAllowed now key = if limiter.maxRequests ≤ (limiter.active now (limiter.timestamps key)).length then
      (false, limiter.setEntry key (some ⟨limiter.active now (limiter.timestamps key)⟩))
    else (true, limiter.setEntry key (some ⟨limiter.active now (limiter.timestamps key) ++ [now]⟩)) := rfl

/-- A call that asks for the key forgets what has left the window, and is remembered where it is allowed. -/
theorem isAllowed_spec (limiter : RateLimiter) (now : ℚ) (key : String) :
    (limiter.isAllowed now key).2.timestamps key = limiter.active now (limiter.timestamps key) ++
      (if (limiter.isAllowed now key).1 = true then [now] else []) ∧
    ((limiter.isAllowed now key).1 = true ↔
      (limiter.active now (limiter.timestamps key)).length < limiter.maxRequests) ∧
    (limiter.isAllowed now key).2.maxRequests = limiter.maxRequests ∧
    (limiter.isAllowed now key).2.windowSeconds = limiter.windowSeconds := by
  rw [isAllowed_eq]
  split
  · simp_all [RateLimiter.timestamps, RateLimiter.setEntry]
  · simp_all [RateLimiter.timestamps, RateLimiter.setEntry]

theorem getRemaining_eq (limiter : RateLimiter) (hmax : 0 ≤ limiter.maxRequests) (now : ℚ) (key : String) :
    limiter.getRemaining now key =
      max 0 (limiter.maxRequests - (limiter.active now (limiter.timestamps key)).length) := by
  unfold RateLimiter.getRemaining RateLimiter.timestamps
  cases limiter.entries key with
  | none => simp [RateLimiter.active, hmax]
  | some entry => rfl

theorem step_other (hcall : ¬ call.OfKey key) (hreset : ∀ k, call ≠ .reset k) (limiter : RateLimiter) :
    SameFor key (rateLimiting.step now call limiter).2 limiter := by
  cases call with
  | isAllowed other =>
    have hne : key ≠ other := fun h => hcall h.symm
    simp only [rateLimiting, isAllowed_eq]
    split
    · exact ⟨rfl, rfl, setEntry_other hne _⟩
    · exact ⟨rfl, rfl, setEntry_other hne _⟩
  | getRemaining other => exact ⟨rfl, rfl, rfl⟩
  | reset k => exact absurd rfl (hreset k)

theorem step_own (hcall : call.OfKey key) (h : SameFor key limiter limiter') :
    (rateLimiting.step now call limiter).1 = (rateLimiting.step now call limiter').1 ∧
      SameFor key (rateLimiting.step now call limiter).2 (rateLimiting.step now call limiter').2 := by
  have hactive : limiter.active now (limiter.timestamps key) = limiter'.active now (limiter'.timestamps key) := by
    simp only [RateLimiter.active, RateLimiter.timestamps, h.entries, h.windowSeconds]
  cases call with
  | isAllowed k =>
    cases hcall
    simp only [rateLimiting, isAllowed_eq, hactive, h.maxRequests]
    split
    · exact ⟨rfl, h.maxRequests, h.windowSeconds, by simp⟩
    · exact ⟨rfl, h.maxRequests, h.windowSeconds, by simp⟩
  | getRemaining k =>
    cases hcall
    refine ⟨?_, h⟩
    simp only [rateLimiting, RateLimiter.getRemaining, RateLimiter.active, h.entries, h.maxRequests,
      h.windowSeconds]
    cases limiter'.entries key with
    | none => rfl
    | some entry => rfl
  | reset k => cases hcall

end Step

section Times

variable {key : String} {window s t : ℚ} {h : List rateLimiting.Done} {e : rateLimiting.Done}

theorem allowedTimes_snoc : allowedTimes key (h ++ [e]) =
    allowedTimes key h ++ if RateLimitCall.allows key e.op e.value = true then [e.time] else [] := by
  simp only [allowedTimes, List.filter_append, List.map_append, List.filter_singleton]
  split <;> simp_all

theorem le_of_allowedTimes (hclock : ∀ d ∈ h, d.time ≤ s) : ∀ t ∈ allowedTimes key h, t ≤ s := by
  intro t ht
  obtain ⟨d, hd, rfl⟩ := List.mem_map.mp ht
  exact hclock d (List.mem_filter.mp hd).1

theorem usedAt_eq (hclock : ∀ d ∈ h, d.time ≤ s) :
    usedAt key window s h = ((allowedTimes key h).filter fun t => s - window < t).length := by
  have hle : ∀ t ∈ allowedTimes key h, t ≤ s := le_of_allowedTimes hclock
  unfold usedAt
  congr 1
  apply List.filter_congr
  intro t ht
  simp [hle t ht]

theorem usedAt_snoc_of_not (hnot : RateLimitCall.allows key e.op e.value = false) :
    usedAt key window s (h ++ [e]) = usedAt key window s h := by
  simp [usedAt, allowedTimes_snoc, hnot]

theorem usedAt_snoc_le : usedAt key window s (h ++ [e]) ≤ usedAt key window s h + 1 := by
  simp only [usedAt, allowedTimes_snoc, List.filter_append, List.length_append]
  apply Nat.add_le_add_left
  split
  · exact List.length_filter_le _ _
  · simp

/-- A window that reaches beyond a call has, of the calls before it, at most those that the window up to the
call has. -/
theorem usedAt_mono (hclock : ∀ d ∈ h, d.time ≤ t) (hts : t ≤ s) :
    usedAt key window s h ≤ usedAt key window t h := by
  rw [usedAt_eq hclock]
  unfold usedAt
  apply List.Sublist.length_le
  apply List.monotone_filter_right
  intro x hx
  simp only [decide_eq_true_eq] at hx ⊢
  linarith [hx.1]

theorem usedAt_snoc_of_lt (hlt : s < e.time) : usedAt key window s (h ++ [e]) = usedAt key window s h := by
  simp only [usedAt, allowedTimes_snoc, List.filter_append, List.length_append]
  split
  · simp [not_le.mpr hlt]
  · simp

end Times

section Linked

/-- What is remembered of a key is what can still be in a window, and no window has too many calls. -/
structure Linked (start : RateLimiter) (h : List rateLimiting.Done) (limiter : RateLimiter) : Prop where
  maxRequests : limiter.maxRequests = start.maxRequests
  windowSeconds : limiter.windowSeconds = start.windowSeconds
  remembered : ∀ key now, (∀ e ∈ h, e.time ≤ now) → limiter.active now (limiter.timestamps key) =
    (allowedTimes key h).filter fun t => now - start.windowSeconds < t
  capped : ∀ key s, usedAt key start.windowSeconds s h ≤ start.maxRequests

variable {start limiter : RateLimiter} {h : List rateLimiting.Done} {e : rateLimiting.Done} {key : String}

theorem Linked.length_active (hlinked : Linked start h limiter) {now : ℚ} (hclock : ∀ d ∈ h, d.time ≤ now) :
    (limiter.active now (limiter.timestamps key)).length = usedAt key start.windowSeconds now h := by
  rw [hlinked.remembered key now hclock, usedAt_eq hclock]

theorem linked_start (hmax : 1 ≤ start.maxRequests) (hfresh : ∀ key, start.entries key = none) :
    Linked start [] start where
  maxRequests := rfl
  windowSeconds := rfl
  remembered := by
    intro key now _
    simp [RateLimiter.timestamps, RateLimiter.active, hfresh, allowedTimes]
  capped := by
    intro key s
    have hused : usedAt key start.windowSeconds s [] = 0 := rfl
    omega

theorem Linked.capped_of_not (hlinked : Linked start h limiter)
    (hnot : RateLimitCall.allows key e.op e.value = false) (s : ℚ) :
    usedAt key start.windowSeconds s (h ++ [e]) ≤ start.maxRequests := by
  rw [usedAt_snoc_of_not hnot]
  exact hlinked.capped key s

theorem Linked.capped_of_room (hlinked : Linked start h limiter) (hclock : ∀ d ∈ h, d.time ≤ e.time)
    (hroom : usedAt key start.windowSeconds e.time h < start.maxRequests) (s : ℚ) :
    usedAt key start.windowSeconds s (h ++ [e]) ≤ start.maxRequests := by
  by_cases hs : e.time ≤ s
  · have hmono : usedAt key start.windowSeconds s h ≤ usedAt key start.windowSeconds e.time h :=
      usedAt_mono hclock hs
    have hone : usedAt key start.windowSeconds s (h ++ [e]) ≤ usedAt key start.windowSeconds s h + 1 :=
      usedAt_snoc_le
    omega
  · rw [usedAt_snoc_of_lt (not_le.mp hs)]
    exact hlinked.capped key s

theorem filter_window {a b : ℚ} (hab : a ≤ b) (l : List ℚ) :
    (l.filter fun t => a < t).filter (fun t => b < t) = l.filter fun t => b < t := by
  rw [List.filter_filter]
  apply List.filter_congr
  intro t _
  by_cases hb : b < t
  · simp [hb, lt_of_le_of_lt hab hb]
  · simp [hb]

theorem not_allows_of_not_ofKey {call : RateLimitCall} (hcall : ¬ call.OfKey key) (value : call.Value) :
    RateLimitCall.allows key call value = false := by
  cases call with
  | isAllowed k =>
    cases value with
    | false => exact Bool.and_false _
    | true => exact (Bool.and_true _).trans (decide_eq_false hcall)
  | getRemaining k => rfl
  | reset k => rfl

theorem allows_self (key : String) (allowed : Bool) :
    RateLimitCall.allows key (.isAllowed key) allowed = allowed := by
  simp [RateLimitCall.allows]

/-- Where neither the timestamps of the key nor its allowed calls change, the key stays remembered. -/
theorem Linked.remembered_same {after : RateLimiter} (hlinked : Linked start h limiter)
    (hsame : SameFor key after limiter) (hnot : RateLimitCall.allows key e.op e.value = false) {now : ℚ}
    (hnow : ∀ d ∈ h ++ [e], d.time ≤ now) : after.active now (after.timestamps key) =
      (allowedTimes key (h ++ [e])).filter fun t => now - start.windowSeconds < t := by
  have hbefore := hlinked.remembered key now fun d hd => hnow d (List.mem_append_left _ hd)
  simp only [RateLimiter.active, RateLimiter.timestamps, hsame.windowSeconds, hsame.entries] at hbefore ⊢
  simp [hbefore, allowedTimes_snoc, hnot]

/-- One call keeps the link. -/
theorem Linked.snoc (hlinked : Linked start h e.before) (hclock : ∀ d ∈ h, d.time ≤ e.time)
    (hdone : (e.value, e.after) = rateLimiting.step e.time e.op e.before) (hreset : ∀ k, e.op ≠ .reset k) :
    Linked start (h ++ [e]) e.after := by
  obtain ⟨t, call, before, value, after⟩ := e
  simp only at hlinked hclock hdone hreset ⊢
  cases call with
  | reset k => exact absurd rfl (hreset k)
  | getRemaining k =>
    have hafter : after = before := congrArg Prod.snd hdone
    subst hafter
    refine ⟨hlinked.maxRequests, hlinked.windowSeconds, ?_, ?_⟩
    · intro key now hnow
      exact hlinked.remembered_same ⟨rfl, rfl, rfl⟩ rfl hnow
    · intro key
      exact hlinked.capped_of_not rfl
  | isAllowed k =>
    obtain ⟨htimestamps, hvalue, hmaxRequests, hwindow⟩ := isAllowed_spec before t k
    rw [show before.isAllowed t k = (value, after) from hdone.symm] at htimestamps hvalue hmaxRequests hwindow
    simp only at htimestamps hvalue hmaxRequests hwindow
    rw [hlinked.length_active hclock, hlinked.maxRequests] at hvalue
    have hallows : RateLimitCall.allows k (.isAllowed k) value = value := allows_self k value
    have hother : ∀ key, key ≠ k → ¬ RateLimitCall.OfKey key (.isAllowed k) := by
      intro key hne hown
      exact hne (Eq.symm hown)
    refine ⟨hmaxRequests.trans hlinked.maxRequests, hwindow.trans hlinked.windowSeconds, ?_, ?_⟩
    · intro key now hnow
      by_cases hne : key = k
      · subst hne
        have htime : t - start.windowSeconds ≤ now - start.windowSeconds := by
          have hle : t ≤ now := hnow ⟨t, .isAllowed key, before, value, after⟩ (by simp)
          linarith
        rw [RateLimiter.active, htimestamps, hlinked.remembered key t hclock, hwindow, hlinked.windowSeconds,
          List.filter_append, filter_window htime, allowedTimes_snoc, List.filter_append, hallows]
      · have hsame : SameFor key after before := by
          have hstep : SameFor key (rateLimiting.step t (.isAllowed k) before).2 before :=
            step_other (hother key hne) (by simp) before
          rw [← hdone] at hstep
          exact hstep
        exact hlinked.remembered_same hsame (not_allows_of_not_ofKey (hother key hne) value) hnow
    · intro key
      by_cases hne : key = k
      · subst hne
        cases value with
        | false => exact hlinked.capped_of_not hallows
        | true => exact hlinked.capped_of_room hclock (hvalue.mp rfl)
      · exact hlinked.capped_of_not (not_allows_of_not_ofKey (hother key hne) value)

theorem linked_of_histories (hmax : 1 ≤ start.maxRequests) (hfresh : ∀ key, start.entries key = none)
    (hh : rateLimiting.Histories start h limiter) (hreset : ∀ e ∈ h, ∀ k, e.op ≠ .reset k) :
    Linked start h limiter := by
  have hall : (∀ e ∈ h, ∀ k, e.op ≠ .reset k) → Linked start h limiter := by
    apply hh.invariant
    · intro _
      exact linked_start hmax hfresh
    · intro h e hclock hdone ih hreset
      have hlinked := ih fun d hd => hreset d (List.mem_append_left _ hd)
      exact hlinked.snoc hclock hdone (hreset e (by simp))
  exact hall hreset

/-- The calls of a key could have been made alone. -/
theorem alone_of_histories (hh : rateLimiting.Histories start h limiter)
    (hreset : ∀ e ∈ h, ∀ k, e.op ≠ .reset k) (key : String) :
    ∃ h' s', rateLimiting.Histories start h' s' ∧
      h'.map answered = (h.filter fun e => RateLimitCall.OfKey key e.op).map answered ∧
      SameFor key limiter s' := by
  have hall : (∀ e ∈ h, ∀ k, e.op ≠ .reset k) → ∃ h' s', rateLimiting.Histories start h' s' ∧
      h'.map answered = (h.filter fun e => RateLimitCall.OfKey key e.op).map answered ∧
      SameFor key limiter s' := by
    apply hh.invariant
    · intro _
      exact ⟨[], start, .nil, rfl, rfl, rfl, rfl⟩
    · intro h e hclock hdone ih hreset
      obtain ⟨h', s', hh', hsame, hagree⟩ := ih fun d hd => hreset d (List.mem_append_left _ hd)
      obtain ⟨t, call, before, value, after⟩ := e
      simp only at hdone hagree ⊢
      by_cases hown : RateLimitCall.OfKey key call
      · have hstep : (rateLimiting.step t call before).1 = (rateLimiting.step t call s').1 ∧
            SameFor key (rateLimiting.step t call before).2 (rateLimiting.step t call s').2 :=
          step_own hown hagree
        rw [← hdone] at hstep
        have hclock' : ∀ d ∈ h', d.time ≤ t := by
          intro d hd
          have hmem : answered d ∈ (h.filter fun e => RateLimitCall.OfKey key e.op).map answered := by
            rw [← hsame]
            exact List.mem_map_of_mem hd
          obtain ⟨e, he, heq⟩ := List.mem_map.mp hmem
          rw [show d.time = e.time from congrArg Prod.fst heq.symm]
          exact hclock e (List.mem_filter.mp he).1
        refine ⟨_, _, hh'.snoc t call hclock', ?_, hstep.2⟩
        rw [List.map_append, hsame, List.filter_append, List.map_append, List.filter_singleton]
        have hvalue : (rateLimiting.step t call s').1 = value := hstep.1.symm
        simp [hown, answered, hvalue]
      · have hother : SameFor key (rateLimiting.step t call before).2 before :=
          step_other hown (hreset ⟨t, call, before, value, after⟩ (by simp)) before
        rw [← hdone] at hother
        refine ⟨h', s', hh', ?_, hother.trans hagree⟩
        simp [hsame, hown]
  exact hall hreset

end Linked

/-- The limiter keeps what a sliding window promises. -/
theorem sliding_window {maxRequests : Int} {windowSeconds : ℚ} (hmax : 1 ≤ maxRequests)
    {h : List rateLimiting.Done} {limiter : RateLimiter}
    (hh : rateLimiting.Histories { maxRequests, windowSeconds } h limiter)
    (hreset : ∀ e ∈ h, ∀ k, e.op ≠ .reset k) : SlidingWindow { maxRequests, windowSeconds } h where
  capped := (linked_of_histories hmax (fun _ => rfl) hh hreset).capped
  refusals := by
    intro h₁ e h₂ key heq hop hrefused
    subst heq
    obtain ⟨hbefore, hdone, hclock⟩ := hh.done
    have hlinked := linked_of_histories hmax (fun _ => rfl) hbefore
      fun d hd => hreset d (List.mem_append_left _ hd)
    obtain ⟨t, call, before, value, after⟩ := e
    simp only at hop
    subst hop
    obtain ⟨-, hvalue, -, -⟩ := isAllowed_spec before t key
    rw [show before.isAllowed t key = (value, after) from hdone.symm, hlinked.length_active hclock,
      hlinked.maxRequests] at hvalue
    have hfalse : value = false := (allows_self key value).symm.trans hrefused
    rw [hfalse] at hvalue
    simpa using hvalue
  remaining := by
    intro h₁ t key before n after h₂ heq
    subst heq
    obtain ⟨hbefore, hdone, hclock⟩ := hh.done
    have hlinked := linked_of_histories hmax (fun _ => rfl) hbefore
      fun d hd => hreset d (List.mem_append_left _ hd)
    have hcapped := hlinked.capped key t
    have hn : n = before.getRemaining t key := congrArg Prod.fst hdone
    have hzero : 0 ≤ before.maxRequests := by
      rw [hlinked.maxRequests]
      exact Int.le_trans (by decide) hmax
    rw [hn, getRemaining_eq before hzero, hlinked.length_active hclock, hlinked.maxRequests]
    exact max_eq_right (Int.sub_nonneg.mpr hcapped)
  alone := by
    intro key
    obtain ⟨h', s', hh', hsame, -⟩ := alone_of_histories hh hreset key
    exact ⟨h', s', hh', hsame⟩

section Example

/-- Two calls of a key are allowed, a third has to wait until the first has left the window; another
key has a window of its own. -/
def sixCalls : List (ℚ × RateLimitCall) :=
  [(0, .isAllowed "run"), (10, .isAllowed "run"), (59, .isAllowed "ship"), (59, .isAllowed "run"),
    (59, .getRemaining "ship"), (60, .isAllowed "run")]

/-- What a call for the remaining requests has been answered. -/
def reported : (call : RateLimitCall) → call.Value → Option Int
  | .getRemaining _, n => some n
  | .isAllowed _, _ | .reset _, _ => none

theorem sliding_window_six :
    let h := (rateLimiting.play { maxRequests := 2, windowSeconds := 60 } sixCalls).1
    h.map (fun e => RateLimitCall.allows "run" e.op e.value) = [true, true, false, false, false, true] ∧
      h.map (fun e => reported e.op e.value) = [none, none, none, none, some 1, none] ∧
      SlidingWindow { maxRequests := 2, windowSeconds := 60 } h := by
  refine ⟨by decide +kernel, by decide +kernel, ?_⟩
  apply sliding_window (by decide) (rateLimiting.histories_play _ (by decide +kernel))
  intro e he
  have hasked : ∀ call ∈ sixCalls, ∀ k, call.2 ≠ .reset k := by simp [sixCalls]
  exact hasked _ (rateLimiting.call_of_play _ he)

end Example

end ForkAgent.Messages
