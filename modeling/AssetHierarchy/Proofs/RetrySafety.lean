import AssetHierarchy.Proofs.Retrying

/-! What a service can do to a client by what it replies. The texts and statuses of its replies do
no harm, and the wait that one of them asks for is observed. Only a wait of `2 ^ 64` seconds or more
ends the session, if a try is left to wait for. -/
namespace AssetHierarchy

variable {σ : Type} {peer : Peer σ} {m : Message} {s : Session σ} {tries left k : Nat}

/-! ### Rounds -/

theorem Session.waits_lastRound (h : s.ended = false) (k : Nat) :
    (s.lastRound peer m k).waits.toList = s.waits.toList ++
      (List.range k).map fun j => (peer.answers m s.peer j).delay?.getD .oneSecond := by
  rw [lastRound_eq h]
  exact (rounds_spec h k).waits

theorem Session.peer_lastRound (h : s.ended = false) (k : Nat) :
    (s.lastRound peer m k).peer = peer.after m s.peer (k + 1) := by
  rw [lastRound_eq h]

theorem Session.ended_lastRound (h : s.ended = false) (k : Nat) :
    (s.lastRound peer m k).ended = false := by
  rw [lastRound_eq h]
  exact (rounds_spec h k).ended

namespace Client

/-- The rounds come to an end at an answer that does not ask for another try, at one that asks when
no try is left, or at one that asks for too long a wait. -/
theorem exists_lastRound (peer : Peer σ) (m : Message) (tries left : Nat) (h : s.ended = false) :
    ∃ k ≤ left, (∀ j < k, GoesOn peer m s.peer j) ∧
      ((attempt peer m tries left s).2 = s.lastRound peer m k ∧
          ((peer.answers m s.peer k).asksAgain = false ∨ k = left) ∨
        (attempt peer m tries left s).2 = { s.lastRound peer m k with ended := true } ∧
          k < left ∧ (peer.answers m s.peer k).asksAgain = true ∧
          ¬(peer.answers m s.peer k).HasDelay) := by
  classical
  by_cases hall : ∀ j < left, GoesOn peer m s.peer j
  · refine ⟨left, le_rfl, hall, .inl ⟨?_, .inr rfl⟩⟩
    cases hx : (peer.answers m s.peer left).asksAgain with
    | false => rw [attempt_of_settled h le_rfl hall hx]
    | true =>
      obtain ⟨code, headers, text, hreply⟩ := Answer.exists_reply_of_asksAgain hx
      rw [attempt_of_exhausted h hall hx hreply]
  · push Not at hall
    have hlast := Nat.find_spec hall
    generalize hk : Nat.find hall = k at hlast
    have hbefore : ∀ j < k, GoesOn peer m s.peer j := by
      intro j hj
      have hmin := Nat.find_min hall (hk ▸ hj)
      by_contra hj'
      exact hmin ⟨hj.trans hlast.1, hj'⟩
    refine ⟨k, hlast.1.le, hbefore, ?_⟩
    cases hx : (peer.answers m s.peer k).asksAgain with
    | false =>
      rw [attempt_of_settled h hlast.1.le hbefore hx]
      exact .inl ⟨rfl, .inl rfl⟩
    | true =>
      have hlong : ¬(peer.answers m s.peer k).HasDelay := fun hd => hlast.2 ⟨hx, hd⟩
      exact .inr ⟨attempt_of_overlong h hlast.1 hbefore hx hlong, hlast.1, rfl, hlong⟩

/-- A session is left as its last round leaves it, apart from whether it has ended. -/
theorem exists_round_attempt (peer : Peer σ) (m : Message) (tries left : Nat)
    (h : s.ended = false) :
    ∃ k ≤ left, (∀ j < k, GoesOn peer m s.peer j) ∧
      ∃ ended, (attempt peer m tries left s).2 = { s.lastRound peer m k with ended } := by
  obtain ⟨k, hk, hrounds, ⟨hrun, -⟩ | ⟨hrun, -⟩⟩ := exists_lastRound peer m tries left h
  · exact ⟨k, hk, hrounds, (s.lastRound peer m k).ended, hrun⟩
  · exact ⟨k, hk, hrounds, true, hrun⟩

/-- Nothing is sent but one message, so many times, and that is all that the other side sees. -/
theorem exists_made_attempt (peer : Peer σ) (m : Message) (tries left : Nat) (s : Session σ) :
    ∃ k ≤ left + 1, s.Made peer m k (attempt peer m tries left s).2 ∧
      (attempt peer m tries left s).2.peer = peer.after m s.peer k := by
  cases h : s.ended with
  | true =>
    rw [attempt_of_ended peer m tries left h]
    exact ⟨0, Nat.zero_le _, Session.made_zero peer m s, rfl⟩
  | false =>
    obtain ⟨k, hk, -, ended, hrun⟩ := exists_round_attempt peer m tries left h
    rw [hrun]
    exact ⟨k + 1, Nat.succ_le_succ hk, Session.made_lastRound h k, Session.peer_lastRound h k⟩

theorem exists_made_request (c : Client) (peer : Peer σ) {r : Request} (hr : 1 ≤ r.tries)
    (s : Session σ) :
    ∃ k ≤ r.tries, s.Made peer (c.message r) k (c.request peer r s).2 ∧
      (c.request peer r s).2.peer = peer.after (c.message r) s.peer k := by
  unfold request Request.verify
  by_cases hpath : r.path.toList.all (· == '/') = true
  · rw [if_pos hpath]
    exact ⟨0, Nat.zero_le _, Session.made_zero peer _ s, rfl⟩
  · rw [if_neg hpath]
    obtain ⟨k, hk, hmade⟩ := exists_made_attempt peer (c.message r) r.tries (r.tries - 1) s
    exact ⟨k, by omega, hmade⟩

theorem ended_attempt_iff (h : s.ended = false) :
    (attempt peer m tries left s).2.ended = true ↔
      ∃ k < left, peer.AllAsk m s.peer (k + 1) ∧ ¬(peer.answers m s.peer k).HasDelay := by
  obtain ⟨k, hleft, hrounds, ⟨hrun, hstop⟩ | ⟨hrun, hk, hx, hlong⟩⟩ :=
    exists_lastRound peer m tries left h
  · rw [hrun, Session.ended_lastRound h]
    refine ⟨nofun, fun ⟨j, hj, hall, hlong⟩ => ?_⟩
    rcases lt_or_ge j k with hjk | hkj
    · exact absurd (hrounds j hjk).2 hlong
    · have hx : (peer.answers m s.peer k).asksAgain = true := hall k (Nat.lt_succ_of_le hkj)
      rcases hstop with hstop | rfl
      · rw [hx] at hstop
        contradiction
      · omega
  · rw [hrun]
    refine iff_of_true rfl ⟨k, hk, fun j hj => ?_, hlong⟩
    rcases Nat.lt_succ_iff_lt_or_eq.mp hj with hj | rfl
    · exact (hrounds j hj).1
    · exact hx

theorem GoesOn.heeds (h : GoesOn peer m s.peer k) :
    Delay.Heeds (peer.answers m s.peer k).retryAfter?
        ((peer.answers m s.peer k).delay?.getD .oneSecond) ∧
      ((peer.answers m s.peer k).delay?.getD .oneSecond).nanoseconds <
        UInt64.size * 1000000000 := by
  obtain ⟨w, hw⟩ := h.2.exists_delay
  rw [hw]
  exact Delay.heeds_of_beforeRetry? hw

theorem exists_waits_attempt (h : s.ended = false) :
    ∃ ws, (attempt peer m tries left s).2.waits.toList = s.waits.toList ++ ws ∧
      s.Made peer m (ws.length + 1) (attempt peer m tries left s).2 ∧
      ∀ j w, ws[j]? = some w → (peer.answers m s.peer j).asksAgain = true ∧
        Delay.Heeds (peer.answers m s.peer j).retryAfter? w ∧
        w.nanoseconds < UInt64.size * 1000000000 := by
  obtain ⟨k, -, hrounds, ended, hrun⟩ := exists_round_attempt peer m tries left h
  rw [hrun]
  refine ⟨(List.range k).map fun j => (peer.answers m s.peer j).delay?.getD .oneSecond, ?_, ?_, ?_⟩
  · exact Session.waits_lastRound h k
  · rw [List.length_map, List.length_range]
    exact Session.made_lastRound h k
  · intro j w hw
    obtain ⟨hj, hw⟩ := List.getElem?_eq_some_iff.mp hw
    rw [List.length_map, List.length_range] at hj
    rw [List.getElem_map, List.getElem_range] at hw
    rw [← hw]
    exact ⟨(hrounds j hj).1, (hrounds j hj).heeds⟩

/-- A service ends the session of its client exactly by asking for too long a wait before a try that
is left. All other waits are observed: each is what the reply before asks for, or one second if that
is no time, and can be expressed. -/
theorem ended_request_iff (c : Client) (peer : Peer σ) (r : Request) (s : Session σ)
    (hverify : r.verify = .ok r) (hopen : s.ended = false) :
    let answers := peer.answers (c.message r) s.peer
    let s' := (c.request peer r s).2
    (s'.ended = true ↔ ∃ k, k + 1 < r.tries ∧ peer.AllAsk (c.message r) s.peer (k + 1) ∧
      ∃ d, (answers k).retryAfter? = some d ∧ d.IsTime ∧ 2 ^ 64 ≤ d.absValue) ∧
    ∃ ws, s'.waits.toList = s.waits.toList ++ ws ∧
      s.Made peer (c.message r) (ws.length + 1) s' ∧
      ∀ j w, ws[j]? = some w → (answers j).asksAgain = true ∧
        Delay.Heeds (answers j).retryAfter? w ∧ w.nanoseconds < UInt64.size * 1000000000 := by
  intro answers s'
  have hrun : s' = (attempt peer (c.message r) r.tries (r.tries - 1) s).2 :=
    congrArg Prod.snd (c.request_of_verify peer s hverify)
  have hlong (x : Answer) : ¬x.HasDelay ↔
      ∃ d, x.retryAfter? = some d ∧ d.IsTime ∧ 2 ^ 64 ≤ d.absValue := by
    simp [Answer.HasDelay]
  rw [hrun, ended_attempt_iff hopen]
  refine ⟨exists_congr fun k => ?_, exists_waits_attempt hopen⟩
  rw [hlong, Nat.lt_sub_iff_add_lt]

/-! ### A wait that is too long -/

/-- A service that is busy for longer than a wait can be. -/
def longWait : Nat → Answer := fun _ => .reply 429 [("Retry-After", "1e20")] (some "")

/-- It asks for a finite time that is not negative, and the session ends. -/
theorem ended_by_longWait :
    threeTries.verify = .ok threeTries ∧
      (∃ d, (longWait 0).retryAfter? = some d ∧ d.IsTime) ∧ (longWait 0).delay? = none ∧
      let s' := (uploader.request (Peer.recorded longWait) threeTries { peer := 0 }).2
      s'.ended = true ∧ s'.attempts.size = 1 ∧ s'.waits = #[] := by
  have hasked : (longWait 0).retryAfter? = some ⟨0x4415AF1D78B58C40⟩ := by decide +kernel
  exact ⟨verify_threeTries, ⟨_, hasked, by decide⟩, by decide +kernel, by decide +kernel,
    by decide +kernel, by decide +kernel⟩

theorem ended_request_iff_longWait :
    let s : Session Nat := { peer := 0 }
    threeTries.verify = .ok threeTries ∧ s.ended = false ∧
      (uploader.request (Peer.recorded longWait) threeTries s).2.ended = true := by
  intro s
  have hanswers : (Peer.recorded longWait).answers (uploader.message threeTries) 0 = longWait :=
    Peer.answers_recorded longWait (by decide +kernel)
  have hlong : ¬(longWait 0).HasDelay := Answer.delay?_eq_none_iff.mp (by decide +kernel)
  obtain ⟨hended, -⟩ := ended_request_iff uploader (Peer.recorded longWait) threeTries s
    verify_threeTries rfl
  refine ⟨verify_threeTries, rfl, hended.mpr ⟨0, by decide, ?_, ?_⟩⟩
  · rw [Peer.AllAsk, hanswers]
    exact fun _ _ => rfl
  · rw [hanswers]
    simpa [Answer.HasDelay] using hlong

end Client

end AssetHierarchy
