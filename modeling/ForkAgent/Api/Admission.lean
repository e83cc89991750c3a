import ForkAgent.Api.RateLimit
import Mathlib.Data.Rat.Floor
import Mathlib.Tactic.Linarith

/-!
# What a client is told

Each client is told what its own requests call for: neither the requests of others nor the clean-ups show, as
long as these leave entries alone for two minutes. What holds of the answers of one client is then read off
its past.
-/

namespace ForkAgent.Api

open Effects

@[simp] theorem windowSeconds_cast : (windowSeconds : ℚ) = 60 := by norm_num [windowSeconds]

section Truncation

variable {x : ℚ}

theorem truncate_of_nonneg (h : 0 ≤ x) : truncate x = ⌊x⌋ := by
  rw [truncate, Int.tdiv_eq_ediv_of_nonneg (Rat.num_nonneg.mpr h), Rat.floor_def']

theorem lt_truncate_add_one (h : 0 ≤ x) : x < truncate x + 1 := by
  rw [truncate_of_nonneg h]
  exact Int.lt_floor_add_one x

theorem truncate_le (h : 0 ≤ x) : (truncate x : ℚ) ≤ x := by
  rw [truncate_of_nonneg h]
  exact Int.floor_le x

end Truncation

section Windows

/-- How many of the times are in the window that ends at a time. -/
def countIn (s : ℚ) (times : List ℚ) : Nat := (times.filter fun t => s - 60 < t ∧ t ≤ s).length

variable {s t : ℚ} {times : List ℚ}

theorem countIn_snoc_of_lt (h : s < t) : countIn s (times ++ [t]) = countIn s times := by
  simp [countIn, not_le.mpr h]

theorem countIn_snoc_le : countIn s (times ++ [t]) ≤ countIn s times + 1 := by
  simp only [countIn, List.filter_append, List.length_append]
  apply Nat.add_le_add_left
  exact List.length_filter_le _ _

theorem countIn_le (hts : t ≤ s) :
    countIn s times ≤ (times.filter fun x => t - x < 60).length := by
  apply List.Sublist.length_le
  apply List.monotone_filter_right
  intro x hx
  simp only [decide_eq_true_eq] at hx ⊢
  linarith [hx.1]

theorem countIn_snoc {limit : Int} (hcapped : countIn s times ≤ max limit 0)
    (hroom : (times.filter fun x => t - x < 60).length < limit) : countIn s (times ++ [t]) ≤ max limit 0 := by
  by_cases hts : t ≤ s
  · have hbefore : countIn s times ≤ _ := countIn_le hts
    have hone : countIn s (times ++ [t]) ≤ countIn s times + 1 := countIn_snoc_le
    omega
  · rw [countIn_snoc_of_lt (not_le.mp hts)]
    exact hcapped

end Windows

namespace Past

section Snoc

variable {past : Past} {e : ℚ × Verdict} {now : ℚ}

theorem allowed_snoc : allowed (past ++ [e]) = past.allowed ++ if e.2.allowed then [e.1] else [] := by
  cases h : e.2.allowed <;> simp [allowed, h]

theorem blockedUntil_snoc :
    blockedUntil (past ++ [e]) = if blocks e then e.1 + 60 else past.blockedUntil := by
  cases h : blocks e <;> simp [blockedUntil, h]

theorem blockedUntil_nil : blockedUntil [] = 0 := rfl

theorem used_eq (past : Past) (now : ℚ) : past.used now = (past.allowed.filter fun ts => now - ts < 60).length := by
  simp [used]

end Snoc

/-- The answers were given at times that never go back, and each is the one that the answers before it call
for. -/
inductive Answers (limit : Int) : Past → Prop where
  | nil : Answers limit []
  | snoc {past} (earlier : Answers limit past) (now : ℚ) (hnow : 0 ≤ now) (hclock : ∀ e ∈ past, e.1 ≤ now) :
      Answers limit (past ++ [(now, past.answer limit now)])

section Answer

variable {limit : Int} {past : Past} {now : ℚ}

theorem answer_blocked (h : now < past.blockedUntil) :
    past.answer limit now = ⟨false, 0, truncate (past.blockedUntil - now)⟩ := if_pos h

theorem answer_full (h : ¬ now < past.blockedUntil) (hfull : limit ≤ past.used now) :
    past.answer limit now = ⟨false, 0, windowSeconds⟩ := by
  rw [answer, if_neg h, if_pos hfull]

theorem answer_room (h : ¬ now < past.blockedUntil) (hroom : (past.used now : Int) < limit) :
    past.answer limit now = ⟨true, limit - (past.used now + 1), 0⟩ := by
  rw [answer, if_neg h, if_neg (not_le.mpr hroom)]

theorem answer_cases (limit : Int) (past : Past) (now : ℚ) :
    (now < past.blockedUntil ∧ past.answer limit now = ⟨false, 0, truncate (past.blockedUntil - now)⟩) ∨
      (¬ now < past.blockedUntil ∧ limit ≤ past.used now ∧ past.answer limit now = ⟨false, 0, windowSeconds⟩) ∨
      (¬ now < past.blockedUntil ∧ (past.used now : Int) < limit ∧
        past.answer limit now = ⟨true, limit - (past.used now + 1), 0⟩) := by
  by_cases h : now < past.blockedUntil
  · exact .inl ⟨h, answer_blocked h⟩
  · by_cases hfull : limit ≤ past.used now
    · exact .inr (.inl ⟨h, hfull, answer_full h hfull⟩)
    · exact .inr (.inr ⟨h, not_le.mp hfull, answer_room h (not_le.mp hfull)⟩)

theorem answer_allowed_iff : (past.answer limit now).allowed = true ↔
    past.blockedUntil ≤ now ∧ (past.used now : Int) < limit := by
  rcases answer_cases limit past now with ⟨h, heq⟩ | ⟨h, hfull, heq⟩ | ⟨h, hroom, heq⟩
  · simp [heq, h]
  · simp [heq, hfull]
  · simp [heq, not_lt.mp h, hroom]

end Answer

namespace Answers

variable {limit : Int} {past : Past} {now s : ℚ}

theorem time_of_allowed (past : Past) {x : ℚ} (hx : x ∈ past.allowed) : ∃ e ∈ past, e.1 = x := by
  obtain ⟨e, he, rfl⟩ := List.mem_map.mp hx
  exact ⟨e, (List.mem_filter.mp he).1, rfl⟩

theorem blockedUntil_le (h : Answers limit past) (hnow : 0 ≤ now) (hclock : ∀ e ∈ past, e.1 ≤ now) :
    past.blockedUntil ≤ now + 60 := by
  induction h with
  | nil =>
    rw [blockedUntil_nil]
    linarith
  | snoc earlier t ht hclock' ih =>
    rw [blockedUntil_snoc]
    split_ifs
    · have hlast := hclock _ (List.mem_append_right _ (List.mem_singleton_self _))
      simp only at hlast ⊢
      linarith
    · exact ih fun e he => hclock e (List.mem_append_left _ he)

theorem capped (h : Answers limit past) (s : ℚ) : countIn s past.allowed ≤ max limit 0 := by
  induction h with
  | nil => simp [Past.allowed, countIn]
  | @snoc past earlier t ht hclock ih =>
    rw [allowed_snoc]
    cases hallowed : (past.answer limit t).allowed with
    | false => simpa using ih
    | true =>
      obtain ⟨-, hroom⟩ := answer_allowed_iff.mp hallowed
      rw [used_eq] at hroom
      exact countIn_snoc ih hroom

theorem blockedUntil_blocked (h : Answers limit past) (hnow : 0 ≤ now) (hclock : ∀ e ∈ past, e.1 ≤ now)
    (hblocked : now < past.blockedUntil) :
    blockedUntil (past ++ [(now, past.answer limit now)]) = past.blockedUntil := by
  have hle := h.blockedUntil_le hnow hclock
  have hwait : 0 ≤ past.blockedUntil - now := by linarith
  rw [blockedUntil_snoc, answer_blocked hblocked]
  split_ifs with hstarts
  · simp only [blocks, Bool.not_false, Bool.true_and, beq_iff_eq] at hstarts
    have htruncate := truncate_le hwait
    rw [hstarts, windowSeconds_cast] at htruncate
    linarith
  · rfl

theorem blockedUntil_full (h : ¬ now < past.blockedUntil) (hfull : limit ≤ past.used now) :
    blockedUntil (past ++ [(now, past.answer limit now)]) = now + 60 := by
  rw [blockedUntil_snoc, answer_full h hfull]
  exact if_pos rfl

theorem blockedUntil_room (h : ¬ now < past.blockedUntil) (hroom : (past.used now : Int) < limit) :
    blockedUntil (past ++ [(now, past.answer limit now)]) = past.blockedUntil := by
  rw [blockedUntil_snoc, answer_room h hroom]
  exact if_neg Bool.false_ne_true

theorem quiet (h : Answers limit past) (hclock : ∀ e ∈ past, e.1 ≤ now) (hblocked : now < past.blockedUntil) :
    ∀ x ∈ past.allowed, x ≤ past.blockedUntil - 60 := by
  induction h with
  | nil =>
    intro x hx
    cases hx
  | @snoc past earlier t ht hclock' ih =>
    have htnow : t ≤ now := hclock _ (List.mem_append_right _ (List.mem_singleton_self _))
    rw [allowed_snoc]
    rcases answer_cases limit past t with ⟨hb, heq⟩ | ⟨hb, hfull, heq⟩ | ⟨hb, hroom, heq⟩
    · rw [earlier.blockedUntil_blocked ht hclock' hb] at hblocked ⊢
      simp only [heq, Bool.false_eq_true, if_false, List.append_nil]
      exact ih (fun e he => hclock e (List.mem_append_left _ he)) hblocked
    · rw [blockedUntil_full hb hfull]
      simp only [heq, Bool.false_eq_true, if_false, List.append_nil]
      intro x hx
      obtain ⟨e, he, rfl⟩ := time_of_allowed past hx
      have hle := hclock' e he
      linarith
    · rw [blockedUntil_room hb hroom] at hblocked
      exact absurd (lt_of_le_of_lt htnow hblocked) hb

theorem last {v : Verdict} (h : Answers limit (past ++ [(now, v)])) : Answers limit past ∧ 0 ≤ now ∧
    (∀ e ∈ past, e.1 ≤ now) ∧ v = past.answer limit now := by
  generalize hall : past ++ [(now, v)] = all at h
  cases h with
  | nil => simp at hall
  | snoc earlier t ht hclock =>
    obtain ⟨rfl, hpair⟩ := List.append_inj' hall rfl
    simp only [List.cons.injEq, Prod.mk.injEq, and_true] at hpair
    obtain ⟨rfl, rfl⟩ := hpair
    exact ⟨earlier, ht, hclock, rfl⟩

/-- After a refusal the block is on, and the time to wait reaches up to the last second of it. -/
theorem refused_last {v : Verdict} (h : Answers limit (past ++ [(now, v)])) (hrefused : v.allowed = false) :
    now < blockedUntil (past ++ [(now, v)]) ∧ now + v.retryAfter ≤ blockedUntil (past ++ [(now, v)]) ∧
      blockedUntil (past ++ [(now, v)]) < now + v.retryAfter + 1 := by
  obtain ⟨earlier, ht, hclock, rfl⟩ := h.last
  rcases answer_cases limit past now with ⟨hb, heq⟩ | ⟨hb, hfull, heq⟩ | ⟨-, -, heq⟩
  · have hwait : 0 ≤ past.blockedUntil - now := by linarith
    have hle := truncate_le hwait
    have hlt := lt_truncate_add_one hwait
    rw [earlier.blockedUntil_blocked ht hclock hb, heq]
    refine ⟨hb, ?_, ?_⟩
    · simp only
      linarith
    · simp only
      linarith
  · rw [blockedUntil_full hb hfull, heq, windowSeconds_cast]
    exact ⟨by linarith, le_refl _, by linarith⟩
  · rw [heq] at hrefused
    cases hrefused

/-- A request that follows a refusal is refused up to the end of the block, and then allowed, with the whole
limit to spend. -/
theorem readmitted {v : Verdict} (h : Answers limit (past ++ [(now, v)])) (hrefused : v.allowed = false)
    (hlimit : 1 ≤ limit) (t : ℚ) : (past ++ [(now, v)]).answer limit t =
      if t < blockedUntil (past ++ [(now, v)]) then
        ⟨false, 0, truncate (blockedUntil (past ++ [(now, v)]) - t)⟩
      else ⟨true, limit - 1, 0⟩ := by
  obtain ⟨-, -, hclock, -⟩ := h.last
  have hlatest : ∀ e ∈ past ++ [(now, v)], e.1 ≤ now := by
    intro e he
    rcases List.mem_append.mp he with he | he
    · exact hclock e he
    · rw [List.mem_singleton.mp he]
  split_ifs with ht
  · exact answer_blocked ht
  · have hnone : used (past ++ [(now, v)]) t = 0 := by
      rw [used_eq, List.length_eq_zero_iff, List.filter_eq_nil_iff]
      intro x hx
      have hle := h.quiet hlatest (h.refused_last hrefused).1 x hx
      simp only [decide_eq_true_eq, not_lt]
      linarith
    rw [answer_room ht (by omega), hnone]
    simp

end Answers

end Past

section Entries

/-- The entry of a client, which is a new one if there is none. -/
def InMemoryRateLimiter.entry (limiter : InMemoryRateLimiter) (clientId : String) : RateLimitEntry :=
  (limiter.clients clientId).getD {}

/-- What the call told the client. -/
def RateLimitMiddleware.told (middleware : RateLimitMiddleware) (clientId : String) :
    (call : LimitCall) → call.Value → Option Verdict
  | .dispatch request, (verdict, _) => if middleware.keyFunc request = clientId then verdict else none
  | .cleanupOldEntries _, _ => none

/-- What a client was told in a history. -/
def RateLimitMiddleware.past (middleware : RateLimitMiddleware) (clientId : String)
    (h : List middleware.machine.Done) : Past :=
  h.filterMap fun e => (middleware.told clientId e.op e.value).map fun verdict => (e.time, verdict)

/-- The entry has all that the past of its client calls for, for as long as it matters. -/
structure Remembers (past : Past) (now : ℚ) (entry : RateLimitEntry) : Prop where
  requests : ∀ t, now ≤ t → entry.requests.filter (fun ts => t - ts < 60) =
    past.allowed.filter fun ts => t - ts < 60
  blocked : ∀ t, now ≤ t → t < entry.blockedUntil ∨ t < past.blockedUntil →
    entry.blockedUntil = past.blockedUntil
  recent : entry.requests ≠ [] → ∃ ts ∈ entry.requests, entry.blockedUntil ≤ ts + 120

variable {limiter : InMemoryRateLimiter} {past : Past} {now t : ℚ} {clientId other : String}
  {entry : RateLimitEntry}

theorem entry_setEntry : (limiter.setEntry clientId entry).entry clientId = entry := by
  simp [InMemoryRateLimiter.entry, InMemoryRateLimiter.setEntry]

theorem entry_setEntry_other (hne : other ≠ clientId) :
    (limiter.setEntry clientId entry).entry other = limiter.entry other := by
  simp [InMemoryRateLimiter.entry, InMemoryRateLimiter.setEntry, hne]

theorem Remembers.later (h : Remembers past now entry) (ht : now ≤ t) : Remembers past t entry where
  requests s hs := h.requests s (ht.trans hs)
  blocked s hs := h.blocked s (ht.trans hs)
  recent := h.recent

theorem remembers_fresh (hnow : 0 ≤ now) (hrequests : ∀ t, now ≤ t → past.allowed.filter (fun ts => t - ts < 60) = [])
    (hblocked : past.blockedUntil ≤ now) : Remembers past now {} where
  requests t ht := (hrequests t ht).symm
  blocked t ht h := by
    rcases h with h | h
    · simp only at h
      linarith
    · linarith
  recent h := absurd rfl h

/-- An entry that is old has nothing in it that matters. -/
theorem Remembers.cleaned {maxAge : ℚ} (h : Remembers past now entry) (hnow : 0 ≤ now) (hage : 120 ≤ maxAge)
    (hold : InMemoryRateLimiter.isOld now maxAge entry = true) : Remembers past now {} := by
  have hentry : (∀ ts ∈ entry.requests, ts + 120 < now) ∧ entry.blockedUntil < now := by
    unfold InMemoryRateLimiter.isOld at hold
    split at hold
    · rename_i latest hlatest
      obtain ⟨hmem, hmax⟩ := List.max?_eq_some_iff.mp hlatest
      simp only [decide_eq_true_eq] at hold
      have hall : ∀ ts ∈ entry.requests, ts + 120 < now := by
        intro ts hts
        have hle := hmax ts hts
        linarith
      obtain ⟨ts, hts, hle⟩ := h.recent (List.ne_nil_of_mem hmem)
      have hlt := hall ts hts
      exact ⟨hall, by linarith⟩
    · rename_i hnone
      simp only [decide_eq_true_eq] at hold
      rw [List.max?_eq_none_iff.mp hnone]
      exact ⟨List.forall_mem_nil _, by linarith⟩
  apply remembers_fresh hnow
  · intro t ht
    rw [← h.requests t ht, List.filter_eq_nil_iff]
    intro ts hts
    have hlt := hentry.1 ts hts
    simp only [decide_eq_true_eq, not_lt]
    linarith
  · by_contra hblocked
    have heq := h.blocked now le_rfl (.inr (not_le.mp hblocked))
    rw [← heq] at hblocked
    exact hblocked hentry.2.le

theorem filter_later (hnow : now ≤ t) (l : List ℚ) :
    (l.filter fun ts => now - ts < 60).filter (fun ts => t - ts < 60) = l.filter fun ts => t - ts < 60 := by
  rw [List.filter_filter]
  apply List.filter_congr
  intro ts _
  by_cases h : t - ts < 60
  · have hlt : now - ts < 60 := by linarith
    simp [h, hlt]
  · simp [h]

/-- A client that the limiter is asked about is told what its past calls for, and remembered with it. -/
theorem isAllowed_spec (hpast : past.Answers limiter.requestsPerMinute)
    (h : Remembers past now (limiter.entry clientId)) (hnow : 0 ≤ now) (hclock : ∀ e ∈ past, e.1 ≤ now) :
    (limiter.isAllowed now clientId).1 = past.answer limiter.requestsPerMinute now ∧
      (limiter.isAllowed now clientId).2.requestsPerMinute = limiter.requestsPerMinute ∧
      (∀ other, other ≠ clientId → (limiter.isAllowed now clientId).2.entry other = limiter.entry other) ∧
      Remembers (past ++ [(now, past.answer limiter.requestsPerMinute now)]) now
        ((limiter.isAllowed now clientId).2.entry clientId) := by
  unfold InMemoryRateLimiter.isAllowed
  rw [show (limiter.clients clientId).getD {} = limiter.entry clientId from rfl]
  generalize limiter.entry clientId = entry at h
  simp only [windowSeconds_cast]
  have hused : (entry.requests.filter fun ts => now - ts < 60).length = past.used now := by
    rw [h.requests now le_rfl, Past.used_eq]
  have hblocked : now < entry.blockedUntil ↔ now < past.blockedUntil := by
    constructor
    · intro hlt
      rwa [← h.blocked now le_rfl (.inl hlt)]
    · intro hlt
      rwa [h.blocked now le_rfl (.inr hlt)]
  rcases Past.answer_cases limiter.requestsPerMinute past now with ⟨hb, heq⟩ | ⟨hb, hfull, heq⟩ | ⟨hb, hroom, heq⟩
  · have hsame := hpast.blockedUntil_blocked hnow hclock hb
    rw [if_pos (hblocked.mpr hb)]
    refine ⟨?_, rfl, fun other hne => entry_setEntry_other hne, ?_⟩
    · rw [heq, h.blocked now le_rfl (.inr hb)]
    · rw [entry_setEntry]
      refine ⟨?_, ?_, h.recent⟩
      · rw [Past.allowed_snoc, heq]
        simpa using h.requests
      · rw [hsame]
        exact h.blocked
  · have hfull' : limiter.requestsPerMinute ≤ (entry.requests.filter fun ts => now - ts < 60).length := by
      rw [hused]
      exact hfull
    rw [if_neg (fun hlt => hb (hblocked.mp hlt)), if_pos hfull']
    refine ⟨heq.symm, rfl, fun other hne => entry_setEntry_other hne, ?_⟩
    rw [entry_setEntry]
    refine ⟨?_, ?_, ?_⟩
    · intro t ht
      rw [Past.allowed_snoc, heq, filter_later ht, h.requests t ht]
      simp
    · intro t _ _
      rw [Past.Answers.blockedUntil_full hb hfull]
    · intro hne
      obtain ⟨ts, hts⟩ := List.exists_mem_of_ne_nil _ hne
      have hlt := (List.mem_filter.mp hts).2
      simp only [decide_eq_true_eq] at hlt
      exact ⟨ts, hts, by simp only; linarith⟩
  · have hroom' : ¬ limiter.requestsPerMinute ≤ (entry.requests.filter fun ts => now - ts < 60).length := by
      rw [hused]
      omega
    have hover : entry.blockedUntil ≤ now := not_lt.mp fun hlt => hb (hblocked.mp hlt)
    rw [if_neg (not_lt.mpr hover), if_neg hroom']
    refine ⟨?_, rfl, fun other hne => entry_setEntry_other hne, ?_⟩
    · rw [heq, List.length_append, hused]
      rfl
    · rw [entry_setEntry]
      refine ⟨?_, ?_, ?_⟩
      · intro t ht
        rw [Past.allowed_snoc, heq, List.filter_append, List.filter_append, filter_later ht, h.requests t ht]
        rfl
      · intro t ht hlt
        rw [Past.Answers.blockedUntil_room hb hroom] at hlt
        exfalso
        rcases hlt with hlt | hlt
        · simp only at hlt
          linarith
        · exact hb (lt_of_le_of_lt ht hlt)
      · intro _
        exact ⟨now, by simp, by simp only; linarith⟩

end Entries

section History

variable {middleware : RateLimitMiddleware} {h : List middleware.machine.Done} {e : middleware.machine.Done}
  {limiter : InMemoryRateLimiter} {clientId : String}

theorem past_untold (h : List middleware.machine.Done) (htold : middleware.told clientId e.op e.value = none) :
    middleware.past clientId (h ++ [e]) = middleware.past clientId h := by
  simp [RateLimitMiddleware.past, htold]

theorem past_told (h : List middleware.machine.Done) {verdict : Verdict}
    (htold : middleware.told clientId e.op e.value = some verdict) :
    middleware.past clientId (h ++ [e]) = middleware.past clientId h ++ [(e.time, verdict)] := by
  simp [RateLimitMiddleware.past, htold]

theorem time_of_past {x : ℚ × Verdict} (hx : x ∈ middleware.past clientId h) : ∃ e ∈ h, e.time = x.1 := by
  obtain ⟨e, he, hmap⟩ := List.mem_filterMap.mp hx
  obtain ⟨verdict, -, rfl⟩ := Option.map_eq_some_iff.mp hmap
  exact ⟨e, he, rfl⟩

/-- Of each client the limiter remembers what matters, and has told it what its past called for. -/
structure Linked (middleware : RateLimitMiddleware) (h : List middleware.machine.Done)
    (limiter : InMemoryRateLimiter) : Prop where
  limit : limiter.requestsPerMinute = middleware.requestsPerMinute
  answers : ∀ clientId, (middleware.past clientId h).Answers middleware.requestsPerMinute
  remembers : ∀ clientId now, 0 ≤ now → (∀ e ∈ h, e.time ≤ now) →
    Remembers (middleware.past clientId h) now (limiter.entry clientId)

theorem linked_start : Linked middleware [] middleware.limiter where
  limit := rfl
  answers _ := .nil
  remembers _ _ hnow _ := remembers_fresh hnow (fun _ _ => rfl) hnow

theorem Remembers.cleanup {past : Past} {now maxAge : ℚ} (h : Remembers past now (limiter.entry clientId))
    (hnow : 0 ≤ now) (hage : 120 ≤ maxAge) :
    Remembers past now ((limiter.cleanupOldEntries now maxAge).entry clientId) := by
  unfold InMemoryRateLimiter.entry at h
  change Remembers past now
    (((limiter.clients clientId).filter fun entry => !InMemoryRateLimiter.isOld now maxAge entry).getD {})
  cases hentry : limiter.clients clientId with
  | none =>
    rw [hentry] at h
    exact h
  | some entry =>
    rw [hentry] at h
    cases hold : InMemoryRateLimiter.isOld now maxAge entry with
    | false => simpa [hold, Option.filter] using h
    | true => simpa [hold, Option.filter] using Remembers.cleaned h hnow hage hold

/-- One operation keeps the link, and a request that the limiter is asked about is answered as it should be. -/
theorem Linked.snoc (hlinked : Linked middleware h e.before) (hnow : 0 ≤ e.time) (hclock : ∀ d ∈ h, d.time ≤ e.time)
    (hdone : (e.value, e.after) = middleware.machine.step e.time e.op e.before)
    (hage : ∀ maxAge, e.op = .cleanupOldEntries maxAge → 120 ≤ maxAge) :
    Linked middleware (h ++ [e]) e.after := by
  obtain ⟨t, call, before, value, after⟩ := e
  simp only at hlinked hnow hclock hdone hage ⊢
  have hpast : ∀ clientId, ∀ x ∈ middleware.past clientId h, x.1 ≤ t := by
    intro clientId x hx
    obtain ⟨d, hd, heq⟩ := time_of_past hx
    rw [← heq]
    exact hclock d hd
  suffices hlast : after.requestsPerMinute = middleware.requestsPerMinute ∧ ∀ clientId,
      (middleware.past clientId (h ++ [⟨t, call, before, value, after⟩])).Answers middleware.requestsPerMinute ∧
        Remembers (middleware.past clientId (h ++ [⟨t, call, before, value, after⟩])) t (after.entry clientId) by
    refine ⟨hlast.1, fun clientId => (hlast.2 clientId).1, fun clientId now _ hlatest => ?_⟩
    have hle : t ≤ now := hlatest ⟨t, call, before, value, after⟩ (by simp)
    exact (hlast.2 clientId).2.later hle
  cases call with
  | cleanupOldEntries maxAge =>
    have hafter : after = before.cleanupOldEntries t maxAge := congrArg Prod.snd hdone
    subst hafter
    refine ⟨hlinked.limit, fun clientId => ?_⟩
    rw [past_untold h rfl]
    have hremembers := hlinked.remembers clientId t hnow hclock
    exact ⟨hlinked.answers clientId, hremembers.cleanup hnow (hage maxAge rfl)⟩
  | dispatch request =>
    simp only [RateLimitMiddleware.machine, RateLimitMiddleware.dispatch] at hdone
    split_ifs at hdone with hexcluded
    · cases hdone
      refine ⟨hlinked.limit, fun clientId => ?_⟩
      rw [past_untold h (by exact ite_self _)]
      exact ⟨hlinked.answers clientId, hlinked.remembers clientId t hnow hclock⟩
    · cases hdone
      have hanswers : ∀ clientId, (middleware.past clientId h).Answers before.requestsPerMinute := by
        rw [hlinked.limit]
        exact hlinked.answers
      obtain ⟨hvalue, hlimit, hother, hremembers⟩ := isAllowed_spec (hanswers (middleware.keyFunc request))
        (hlinked.remembers _ t hnow hclock) hnow (hpast _)
      refine ⟨hlimit.trans hlinked.limit, fun clientId => ?_⟩
      by_cases hown : middleware.keyFunc request = clientId
      · subst hown
        rw [past_told h (by exact if_pos rfl)]
        simp only [hvalue]
        rw [hlinked.limit] at hremembers ⊢
        exact ⟨.snoc (hlinked.answers _) t hnow (hpast _), hremembers⟩
      · rw [past_untold h (by exact if_neg hown), hother clientId (Ne.symm hown)]
        exact ⟨hlinked.answers clientId, hlinked.remembers clientId t hnow hclock⟩

theorem linked_of_histories (hh : middleware.machine.Histories middleware.limiter h limiter)
    (htime : ∀ e ∈ h, 0 ≤ e.time) (hage : ∀ e ∈ h, ∀ maxAge, e.op = .cleanupOldEntries maxAge → 120 ≤ maxAge) :
    Linked middleware h limiter := by
  have hall : (∀ e ∈ h, 0 ≤ e.time) → (∀ e ∈ h, ∀ maxAge, e.op = .cleanupOldEntries maxAge → 120 ≤ maxAge) →
      Linked middleware h limiter := by
    apply hh.invariant
    · intro _ _
      exact linked_start
    · intro h e hclock hdone ih htime hage
      have hlinked := ih (fun d hd => htime d (List.mem_append_left _ hd))
        fun d hd => hage d (List.mem_append_left _ hd)
      exact hlinked.snoc (htime e (by simp)) hclock hdone (hage e (by simp))
  exact hall htime hage

end History

section Limits

/-- What the middleware promises of a history of requests and clean-ups. -/
structure Limits (middleware : RateLimitMiddleware) (h : List middleware.machine.Done) : Prop where
  own : ∀ h₁ t request before (response : Option Verdict × Response) after h₂,
    h = h₁ ++ ⟨t, .dispatch request, before, response, after⟩ :: h₂ →
      response = if request.path ∈ middleware.excludedPaths then (none, .passedOn []) else
        let verdict := (middleware.past (middleware.keyFunc request) h₁).answer middleware.requestsPerMinute t
        (some verdict, respond middleware.requestsPerMinute verdict)
  capped : ∀ clientId s, countIn s (middleware.past clientId h).allowed ≤ max middleware.requestsPerMinute 0
  readmits : ∀ clientId earlier (now : ℚ) verdict, middleware.past clientId h = earlier ++ [(now, verdict)] →
    verdict.allowed = false → ∃ ends : ℚ, now + (verdict.retryAfter : ℚ) ≤ ends ∧
      ends < now + (verdict.retryAfter : ℚ) + 1 ∧ ends ≤ now + 60 ∧
        ∀ t, (middleware.past clientId h).answer middleware.requestsPerMinute t =
          if t < ends then ⟨false, 0, truncate (ends - t)⟩ else ⟨true, middleware.requestsPerMinute - 1, 0⟩

variable {middleware : RateLimitMiddleware} {h : List middleware.machine.Done} {limiter : InMemoryRateLimiter}
  {request : Request} {maxAge : ℚ}

theorem limits_of_histories (hlimit : 1 ≤ middleware.requestsPerMinute) (hage : 120 ≤ maxAge)
    (hh : middleware.machine.Histories middleware.limiter h limiter) (htime : ∀ e ∈ h, 0 ≤ e.time)
    (hcleanup : ∀ e ∈ h, ∀ age, e.op = .cleanupOldEntries age → maxAge ≤ age) : Limits middleware h := by
  have hall : ∀ e ∈ h, ∀ age, e.op = .cleanupOldEntries age → 120 ≤ age := by
    intro e he age hop
    exact hage.trans (hcleanup e he age hop)
  have hlinked := linked_of_histories hh htime hall
  refine ⟨?_, fun clientId s => (hlinked.answers clientId).capped s, ?_⟩
  · intro h₁ t request before response after h₂ heq
    subst heq
    obtain ⟨hbefore, hdone, hclock⟩ := hh.done
    have hlinked₁ := linked_of_histories hbefore (fun d hd => htime d (List.mem_append_left _ hd))
      fun d hd => hall d (List.mem_append_left _ hd)
    have hnow : 0 ≤ t := htime ⟨t, .dispatch request, before, response, after⟩ (by simp)
    simp only at hdone hclock
    simp only [RateLimitMiddleware.machine, RateLimitMiddleware.dispatch] at hdone
    split_ifs at hdone ⊢ with hexcluded
    · exact congrArg Prod.fst hdone
    · have hanswers := hlinked₁.answers (middleware.keyFunc request)
      rw [← hlinked₁.limit] at hanswers
      have hpast : ∀ x ∈ middleware.past (middleware.keyFunc request) h₁, x.1 ≤ t := by
        intro x hx
        obtain ⟨d, hd, hdx⟩ := time_of_past hx
        rw [← hdx]
        exact hclock d hd
      obtain ⟨hvalue, hkept, -, -⟩ := isAllowed_spec hanswers (hlinked₁.remembers _ t hnow hclock) hnow hpast
      have hresponse := congrArg Prod.fst hdone
      simp only [hvalue, hkept] at hresponse
      rw [hlinked₁.limit] at hresponse
      exact hresponse
  · intro clientId earlier now verdict hpast hrefused
    have hanswers := hlinked.answers clientId
    rw [hpast] at hanswers ⊢
    obtain ⟨-, hle, hlt⟩ := hanswers.refused_last hrefused
    obtain ⟨hbefore, hnow, hclock, -⟩ := hanswers.last
    refine ⟨_, hle, hlt, ?_, fun t => hanswers.readmitted hrefused hlimit t⟩
    apply hanswers.blockedUntil_le hnow
    intro e he
    rcases List.mem_append.mp he with he | he
    · exact hclock e he
    · rw [List.mem_singleton.mp he]

theorem step_dispatch (hpath : request.path ∉ middleware.excludedPaths) (now : ℚ) (limiter : InMemoryRateLimiter) :
    middleware.machine.step now (.dispatch request) limiter =
      ((some (limiter.isAllowed now (middleware.keyFunc request)).1,
        respond (limiter.isAllowed now (middleware.keyFunc request)).2.requestsPerMinute
          (limiter.isAllowed now (middleware.keyFunc request)).1),
        (limiter.isAllowed now (middleware.keyFunc request)).2) :=
  if_neg hpath

theorem isAllowed_burst {n : Nat} {now : ℚ} (hentry : limiter.entry clientId = ⟨List.replicate n 0, 0⟩)
    (hnow : 0 ≤ now) (hlt : now < 60) : limiter.isAllowed now clientId =
      if limiter.requestsPerMinute ≤ n then
        (⟨false, 0, windowSeconds⟩, limiter.setEntry clientId ⟨List.replicate n 0, now + 60⟩)
      else (⟨true, limiter.requestsPerMinute - (n + 1 : Nat), 0⟩,
        limiter.setEntry clientId ⟨List.replicate n 0 ++ [now], 0⟩) := by
  have hfilter : (List.replicate n (0 : ℚ)).filter (fun ts => now - ts < 60) = List.replicate n 0 := by
    rw [List.filter_eq_self]
    intro ts hts
    rw [List.eq_of_mem_replicate hts]
    simpa using hlt
  unfold InMemoryRateLimiter.isAllowed
  rw [show (limiter.clients clientId).getD {} = limiter.entry clientId from rfl, hentry]
  simp only [windowSeconds_cast, hfilter, if_neg (not_lt.mpr hnow)]
  simp

theorem exists_burst (hpath : request.path ∉ middleware.excludedPaths) (n : Nat)
    (hn : n ≤ middleware.requestsPerMinute) : ∃ (h : List middleware.machine.Done) (limiter : InMemoryRateLimiter),
      middleware.machine.Histories middleware.limiter h limiter ∧
        (∀ e ∈ h, e.time = 0 ∧ ∀ age, e.op ≠ .cleanupOldEntries age) ∧
        limiter.requestsPerMinute = middleware.requestsPerMinute ∧
        limiter.entry (middleware.keyFunc request) = ⟨List.replicate n 0, 0⟩ := by
  induction n with
  | zero => exact ⟨[], middleware.limiter, .nil, by simp, rfl, rfl⟩
  | succ n ih =>
    obtain ⟨h, limiter, hh, hop, hlimit, hentry⟩ := ih (by omega)
    have hnext := hh.snoc 0 (.dispatch request) fun e he => (hop e he).1.le
    have hburst := isAllowed_burst hentry le_rfl (by norm_num)
    rw [if_neg (by omega)] at hburst
    rw [step_dispatch hpath, hburst] at hnext
    refine ⟨_, _, hnext, ?_, hlimit, ?_⟩
    · intro e he
      rcases List.mem_append.mp he with he | he
      · exact hop e he
      · rw [List.mem_singleton.mp he]
        exact ⟨rfl, nofun⟩
    · rw [entry_setEntry, List.replicate_succ']

/-- Once it is old enough to be cleaned up, an entry of requests that were made at once is gone. -/
theorem entry_cleanup {n : Nat} {now ends : ℚ} (hn : 0 < n) (hold : maxAge < now) :
    ((limiter.setEntry clientId ⟨List.replicate n 0, ends⟩).cleanupOldEntries now maxAge).entry clientId = {} := by
  have hmax : (List.replicate n (0 : ℚ)).max? = some 0 := List.max?_replicate_of_pos hn
  simp [InMemoryRateLimiter.entry, InMemoryRateLimiter.cleanupOldEntries, InMemoryRateLimiter.setEntry,
    InMemoryRateLimiter.isOld, hmax, hold, Option.filter]

theorem isAllowed_fresh {now : ℚ} (hentry : limiter.entry clientId = {}) (hnow : 0 ≤ now)
    (hlimit : 1 ≤ limiter.requestsPerMinute) : (limiter.isAllowed now clientId).1.allowed = true := by
  unfold InMemoryRateLimiter.isAllowed
  rw [show (limiter.clients clientId).getD {} = limiter.entry clientId from rfl, hentry]
  have hroom : ¬ limiter.requestsPerMinute ≤ 0 := by omega
  simp [not_lt.mpr hnow, hroom]

theorem snoc_within (hh : middleware.machine.Histories middleware.limiter h limiter) {t now : ℚ}
    (hwithin : ∀ e ∈ h, 0 ≤ e.time ∧ e.time ≤ t) (hle : t ≤ now) (hnow : 0 ≤ now) (o : middleware.machine.Op) :
    middleware.machine.Histories middleware.limiter (h ++ [⟨now, o, limiter, (middleware.machine.step now o limiter).1,
      (middleware.machine.step now o limiter).2⟩]) (middleware.machine.step now o limiter).2 ∧
      ∀ e ∈ h ++ [⟨now, o, limiter, (middleware.machine.step now o limiter).1,
        (middleware.machine.step now o limiter).2⟩], 0 ≤ e.time ∧ e.time ≤ now := by
  constructor
  · exact hh.snoc now o fun e he => (hwithin e he).2.trans hle
  · intro e he
    rcases List.mem_append.mp he with he | he
    · exact ⟨(hwithin e he).1, (hwithin e he).2.trans hle⟩
    · rw [List.mem_singleton.mp he]
      exact ⟨hnow, le_rfl⟩

/-- Clean-ups that come too early let a client in that is blocked. -/
theorem not_limits_of_early (hlimit : 1 ≤ middleware.requestsPerMinute)
    (hpath : request.path ∉ middleware.excludedPaths) (hage : maxAge < 120) :
    ∃ (h : List middleware.machine.Done) (limiter : InMemoryRateLimiter),
      middleware.machine.Histories middleware.limiter h limiter ∧ (∀ e ∈ h, 0 ≤ e.time) ∧
        (∀ e ∈ h, ∀ age, e.op = .cleanupOldEntries age → maxAge ≤ age) ∧ ¬ Limits middleware h := by
  -- The block starts a little before the requests leave the window, and they are old a little before it ends.
  obtain ⟨d, hd, hd20, hdage⟩ : ∃ d : ℚ, 0 < d ∧ d ≤ 20 ∧ 3 * d ≤ 120 - maxAge := by
    refine ⟨min 20 ((120 - maxAge) / 3), ?_, min_le_left _ _, ?_⟩
    · apply lt_min
      · norm_num
      · linarith
    · have hle := min_le_right 20 ((120 - maxAge) / 3)
      linarith
  obtain ⟨h, limiter, hh, hop, hrpm, hentry⟩ := exists_burst hpath middleware.requestsPerMinute.toNat (by omega)
  have hstart : ∀ e ∈ h, 0 ≤ e.time ∧ e.time ≤ 0 := fun e he => ⟨(hop e he).1.ge, (hop e he).1.le⟩
  have hfirst : (0 : ℚ) ≤ 60 - d := by linarith
  have hsecond : 60 - d ≤ 120 - 2 * d := by linarith
  have hend : 0 ≤ 120 - 2 * d := hfirst.trans hsecond
  obtain ⟨hrefused, hrefusedWithin⟩ := snoc_within hh hstart hfirst hfirst (.dispatch request)
  have hburst := isAllowed_burst hentry hfirst (by linarith)
  rw [if_pos (by omega)] at hburst
  rw [step_dispatch hpath, hburst] at hrefused hrefusedWithin
  obtain ⟨hcleaned, hcleanedWithin⟩ :=
    snoc_within hrefused hrefusedWithin hsecond hend (.cleanupOldEntries maxAge)
  have hgone : ((limiter.setEntry (middleware.keyFunc request)
      ⟨List.replicate middleware.requestsPerMinute.toNat 0, 60 - d + 60⟩).cleanupOldEntries (120 - 2 * d)
        maxAge).entry (middleware.keyFunc request) = {} := entry_cleanup (by omega) (by linarith)
  obtain ⟨hlast, hlastWithin⟩ := snoc_within hcleaned hcleanedWithin le_rfl hend (.dispatch request)
  refine ⟨_, _, hlast, fun e he => (hlastWithin e he).1, ?_, ?_⟩
  · intro e he age hcleanup
    simp only [List.mem_append, List.mem_singleton] at he
    rcases he with ((he | rfl) | rfl) | rfl
    · exact absurd hcleanup ((hop e he).2 age)
    · cases hcleanup
    · cases hcleanup
      exact le_rfl
    · cases hcleanup
  · intro hlimits
    have hown := hlimits.own _ (120 - 2 * d) request _ _ _ [] rfl
    rw [if_neg hpath, step_dispatch hpath] at hown
    have hverdict := Option.some.inj (congrArg Prod.fst hown)
    have hallowed := isAllowed_fresh hgone hend (hlimit.trans hrpm.ge)
    have htold := congrArg Verdict.allowed hverdict
    have hanswer := hallowed.symm.trans htold
    rw [past_untold _ (by exact rfl), past_told _ (by exact if_pos rfl)] at hanswer
    rw [Past.answer_blocked] at hanswer
    · cases hanswer
    · rw [Past.blockedUntil_snoc, if_pos (by exact rfl)]
      simp only
      linarith

/-- The middleware keeps what it promises if and only if no clean-up takes away entries younger than two
minutes. -/
theorem limits_iff (hlimit : 1 ≤ middleware.requestsPerMinute) (hpath : request.path ∉ middleware.excludedPaths)
    (maxAge : ℚ) : (∀ (h : List middleware.machine.Done) (limiter : InMemoryRateLimiter),
      middleware.machine.Histories middleware.limiter h limiter → (∀ e ∈ h, 0 ≤ e.time) →
        (∀ e ∈ h, ∀ age, e.op = .cleanupOldEntries age → maxAge ≤ age) → Limits middleware h) ↔ 120 ≤ maxAge := by
  constructor
  · intro hall
    by_contra hage
    obtain ⟨h, limiter, hh, htime, hcleanup, hnot⟩ := not_limits_of_early hlimit hpath (not_le.mp hage)
    exact hnot (hall h limiter hh htime hcleanup)
  · intro hage h limiter hh htime hcleanup
    exact limits_of_histories hlimit hage hh htime hcleanup

/-- The middleware as the API is given it, with keys that hash to one number. -/
def apiMiddleware : RateLimitMiddleware := { keyFunc := defaultKeyFunc fun _ => 0 }

/-- The clean-ups with the age that is the default come late enough. -/
theorem limits_of_default_age : "/api/v1/agents" ∉ apiMiddleware.excludedPaths ∧
    ∀ (h : List apiMiddleware.machine.Done) (limiter : InMemoryRateLimiter),
      apiMiddleware.machine.Histories apiMiddleware.limiter h limiter → (∀ e ∈ h, 0 ≤ e.time) →
        (∀ e ∈ h, ∀ age, e.op = .cleanupOldEntries age → 300 ≤ age) → Limits apiMiddleware h := by
  have hpath : "/api/v1/agents" ∉ apiMiddleware.excludedPaths := by decide
  constructor
  · exact hpath
  · exact (@limits_iff apiMiddleware ⟨"/api/v1/agents", none, none⟩ (by decide) hpath 300).mpr (by norm_num)

end Limits

end ForkAgent.Api
