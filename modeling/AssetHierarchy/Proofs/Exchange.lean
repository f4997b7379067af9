import AssetHierarchy.Assets.Service

/-! One request and the answers to its attempts. Every answer but the last asked for another try.
The result speaks of the last one only. If that may have had an effect, the result is a success or
leaves the outcome open, whatever the earlier answers were. A success is read from the last answer
alone, and one that breaks off or is no JSON is read as a list of nothing. -/
namespace AssetHierarchy

namespace Answer

def status? : Answer → Option Nat
  | reply code _ _ => some code
  | fault _ => none

def isSuccess (x : Answer) : Bool := x.status?.any fun code => 200 ≤ code && code ≤ 299

/-- The service failed while it worked on the message. -/
def isServerError (x : Answer) : Bool := x.status?.any fun code => 500 ≤ code

/-- The message was sent, and no reply arrived. -/
def isLost : Answer → Bool
  | fault .timedOut | fault .lost => true
  | _ => false

def mayHaveActed (x : Answer) : Bool := x.isSuccess || x.isServerError || x.isLost

/-- The service wants the message again. -/
def asksAgain (x : Answer) : Bool := x.status?.any [429, 502, 503, 504].contains

/-- The reply that an answer brings, if it is a success. -/
def response? : Answer → Option Response
  | reply code headers text =>
    let r := Client.response code headers text
    if r.isOk then some r else none
  | fault _ => none

/-- The assets that an answer lists, if it is a success and they can be read. -/
def assets? (x : Answer) : Option (List Asset) :=
  x.response?.bind fun r => r.assets.toOption

/-- The reply has no text, or its text breaks off or is no JSON. -/
def isUnreadable : Answer → Bool
  | reply _ _ text => text.all fun t => t = "" || (Json.parse? t).isNone
  | fault _ => false

theorem isSuccess_of_asksAgain {x : Answer} (h : x.asksAgain = true) : x.isSuccess = false := by
  cases x with
  | fault f => rfl
  | reply code headers text =>
    have hcode : code = 429 ∨ code = 502 ∨ code = 503 ∨ code = 504 := by
      simpa [asksAgain, status?] using h
    rcases hcode with rfl | rfl | rfl | rfl <;> rfl

theorem isLost_of_asksAgain {x : Answer} (h : x.asksAgain = true) : x.isLost = false := by
  cases x with
  | fault f => simp [asksAgain, status?] at h
  | reply code headers text => rfl

theorem response?_reply (code : Nat) (headers : List (String × String)) (text : Option String) :
    (reply code headers text).response? =
      if (reply code headers text).isSuccess then some (Client.response code headers text)
      else none := rfl

theorem isSuccess_of_assets? {x : Answer} {assets : List Asset} (h : x.assets? = some assets) :
    x.isSuccess = true := by
  obtain ⟨r, hr, -⟩ := Option.bind_eq_some_iff.mp h
  cases x with
  | fault f => contradiction
  | reply code headers text =>
    rw [response?_reply] at hr
    split at hr
    · assumption
    · contradiction

theorem items_bodyOfText {text : String} (h : text = "" ∨ Json.parse? text = none) :
    (Response.bodyOfText text).get? "items" = none := by
  unfold Response.bodyOfText
  split
  · rfl
  · next hne =>
    rw [h.resolve_left hne]
    rfl

/-- What cannot be read is taken for a list without assets. -/
theorem assets?_of_isUnreadable {x : Answer} (hx : x.isSuccess = true)
    (h : x.isUnreadable = true) : x.assets? = some [] := by
  cases x with
  | fault f => contradiction
  | reply code headers text =>
    have hbody : text.getD "" = "" ∨ Json.parse? (text.getD "") = none := by
      cases text with
      | none => exact .inl rfl
      | some t => simpa [isUnreadable] using h
    have hitems : (Client.response code headers text).body.get? "items" = none :=
      items_bodyOfText hbody
    rw [assets?, response?_reply, if_pos hx, Option.bind_some, Response.assets, hitems]
    rfl

end Answer

/-! ### Outcomes -/

namespace HttpError

theorem isAmbiguous_outcomeOfStatus (code : Nat) (reason : String) :
    (outcomeOfStatus code reason).isAmbiguous = decide (500 ≤ code) := by
  unfold outcomeOfStatus
  split <;> simp [SubmitOutcome.isAmbiguous, *]

end HttpError

namespace Client

theorem isAmbiguous_exhausted (tries : Nat) (r : Response) :
    (exhausted tries r).outcome.isAmbiguous = decide (500 ≤ r.code) := by
  unfold exhausted
  split <;> exact HttpError.isAmbiguous_outcomeOfStatus _ _

theorem verdict_reply (code : Nat) (headers : List (String × String)) (text : Option String) :
    verdict (.reply code headers text) =
      if (response code headers text).isOk then .settled (.ok (response code headers text))
      else if (response code headers text).isRetryable then .again (response code headers text)
      else .settled (.error (.response (response code headers text).error)) := rfl

/-- What an answer does to its request. The error that comes of it is ambiguous exactly when the
message may have had an effect. -/
theorem verdict_cases (x : Answer) :
    (∃ r, verdict x = .settled (.ok r) ∧ x.response? = some r) ∨
      x.response? = none ∧
      ((∃ r, verdict x = .again r ∧ x.asksAgain = true ∧
        ∀ tries, (exhausted tries r).outcome.isAmbiguous = x.mayHaveActed) ∨
      ∃ e, verdict x = .settled (.error e) ∧ e.outcome.isAmbiguous = x.mayHaveActed) := by
  cases x with
  | fault f =>
    refine .inr ⟨rfl, .inr ⟨.network f, rfl, ?_⟩⟩
    cases f <;> rfl
  | reply code headers text =>
    rw [verdict_reply]
    have hacted : ¬(response code headers text).isOk = true →
        (Answer.reply code headers text).mayHaveActed = decide (500 ≤ code) := by
      intro hok
      have hsuccess : (Answer.reply code headers text).isSuccess = false :=
        Bool.eq_false_iff.mpr hok
      rw [Answer.mayHaveActed, hsuccess]
      simp [Answer.isServerError, Answer.status?, Answer.isLost]
    split
    · next hok => exact .inl ⟨_, rfl, if_pos hok⟩
    · next hok =>
      refine .inr ⟨if_neg hok, ?_⟩
      split
      · next hretry =>
        refine .inl ⟨_, rfl, hretry, fun tries => ?_⟩
        rw [isAmbiguous_exhausted, hacted hok]
        rfl
      · refine .inr ⟨_, rfl, ?_⟩
        rw [hacted hok]
        exact HttpError.isAmbiguous_outcomeOfStatus _ _

end Client

/-! ### Exchanges -/

/-- What the answers to the attempts of one request tell, and what its result does. -/
structure Exchange {α : Type} (answers : List Answer) (result : Except HttpError α) : Prop where
  asked_again : ∀ x ∈ answers.dropLast, x.asksAgain = true
  left_open : ∀ x ∈ answers.getLast?, x.mayHaveActed = true → ∀ e, result = .error e →
    e.outcome.isAmbiguous = true

namespace Exchange

variable {α : Type} {x : Answer} {answers : List Answer} {result : Except HttpError α}

theorem nil (result : Except HttpError α) : Exchange [] result := ⟨nofun, nofun⟩

theorem single (h : x.mayHaveActed = true → ∀ e, result = .error e →
    e.outcome.isAmbiguous = true) : Exchange [x] result := by
  refine ⟨nofun, fun y hy => ?_⟩
  obtain rfl : x = y := by simpa using hy
  exact h

theorem cons (hx : x.asksAgain = true) (h : Exchange answers result) (hne : answers ≠ []) :
    Exchange (x :: answers) result := by
  constructor
  · rw [List.dropLast_cons_of_ne_nil hne]
    intro y hy
    rcases List.mem_cons.mp hy with rfl | hy
    · exact hx
    · exact h.asked_again y hy
  · intro y hy
    rw [List.getLast?_cons, List.getLast?_eq_some_getLast hne] at hy
    refine h.left_open y ?_
    rw [List.getLast?_eq_some_getLast hne]
    exact hy

end Exchange

namespace Client

variable {σ : Type}

theorem send_of_ended (peer : Peer σ) (m : Message) {s : Session σ} (h : s.ended = true) :
    s.send peer m = (.fault .unreachable, s) := by
  rw [Session.send, if_pos h]

theorem exists_send (peer : Peer σ) (m : Message) {s : Session σ} (h : s.ended = false) :
    ∃ x s', s.send peer m = (x, s') ∧ s'.attempts.toList = s.attempts.toList ++ [⟨m, x⟩] ∧
      s'.ended = false := by
  rw [Session.send, if_neg (by simp [h])]
  exact ⟨_, _, rfl, by simp, h⟩

theorem attempt_of_ended (peer : Peer σ) (m : Message) (tries left : Nat) {s : Session σ}
    (h : s.ended = true) :
    attempt peer m tries left s = (.error (.network .unreachable), s) := by
  unfold attempt
  rw [send_of_ended peer m h]
  rfl

/-- One attempt is the last and decides, or it is followed by those of a try less. -/
theorem attempt_cases (peer : Peer σ) (m : Message) (tries left : Nat) {s : Session σ}
    (h : s.ended = false) :
    ∃ (x : Answer) (s' : Session σ),
      s'.attempts.toList = s.attempts.toList ++ [⟨m, x⟩] ∧ s'.ended = false ∧
      (((attempt peer m tries left s).2.attempts = s'.attempts ∧
        Exchange [x] (attempt peer m tries left s).1 ∧
        (attempt peer m tries left s).1.toOption = x.response?) ∨
      ∃ k d, left = k + 1 ∧ x.asksAgain = true ∧
        attempt peer m tries left s = attempt peer m tries k (s'.wait d)) := by
  obtain ⟨x, s', hsend, hlog, hs'⟩ := exists_send peer m h
  refine ⟨x, s', hlog, hs', ?_⟩
  generalize hrun : attempt peer m tries left s = run
  unfold attempt at hrun
  rw [hsend] at hrun
  rcases verdict_cases x with
    ⟨r, hx, hok⟩ | ⟨hnone, ⟨r, hx, hagain, hopen⟩ | ⟨e, hx, hopen⟩⟩
  · simp only [hx] at hrun
    subst hrun
    exact .inl ⟨rfl, .single nofun, hok.symm⟩
  · simp only [hx] at hrun
    cases left with
    | zero =>
      subst hrun
      refine .inl ⟨rfl, .single fun hacted e he => ?_, hnone.symm⟩
      rw [← Except.error.inj he, hopen, hacted]
    | succ k =>
      dsimp only at hrun
      split at hrun
      · -- the wait cannot be expressed: the session ends, and the message counts as lost
        subst hrun
        refine .inl ⟨rfl, .single fun _ e he => ?_, hnone.symm⟩
        rw [← Except.error.inj he]
        rfl
      · next d _ => exact .inr ⟨k, d, rfl, hagain, hrun.symm⟩
  · simp only [hx] at hrun
    subst hrun
    refine .inl ⟨rfl, .single fun hacted e' he => ?_, hnone.symm⟩
    rw [← Except.error.inj he, hopen, hacted]

/-- A session that has not ended makes at least one attempt. What comes of them is the reply in the
last answer, if that is a success. -/
theorem exists_exchange_attempt (peer : Peer σ) (m : Message) (tries left : Nat) (s : Session σ) :
    ∃ answers, (s.ended = false → answers ≠ []) ∧
      (attempt peer m tries left s).2.attempts.toList =
        s.attempts.toList ++ answers.map (⟨m, ·⟩) ∧
      Exchange answers (attempt peer m tries left s).1 ∧
      (attempt peer m tries left s).1.toOption = answers.getLast?.bind Answer.response? := by
  induction left using Nat.strongRecOn generalizing s with
  | ind left ih =>
    cases hs : s.ended with
    | true =>
      rw [attempt_of_ended peer m tries left hs]
      exact ⟨[], nofun, by simp, .nil _, rfl⟩
    | false =>
      obtain ⟨x, s', hlog, hs', ⟨hlast, hx, hread⟩ | ⟨k, d, rfl, hagain, hnext⟩⟩ :=
        attempt_cases peer m tries left hs
      · exact ⟨[x], nofun, by rw [hlast, hlog]; rfl, hx, hread⟩
      · obtain ⟨rest, hne, hrest, hx, hread⟩ := ih k (Nat.lt_succ_self k) (s'.wait d)
        rw [hnext]
        refine ⟨x :: rest, nofun, ?_, hx.cons hagain (hne hs'), ?_⟩
        · rw [hrest, Session.wait, hlog]
          simp
        · have hlast := List.getLast?_eq_some_getLast (hne hs')
          rw [hread, List.getLast?_cons, hlast]
          rfl

theorem exists_exchange_request (c : Client) (peer : Peer σ) (r : Request) (s : Session σ) :
    ∃ answers, (s.ended = false → r.path.toList.all (· == '/') = false → answers ≠ []) ∧
      (c.request peer r s).2.attempts.toList =
        s.attempts.toList ++ answers.map (⟨c.message r, ·⟩) ∧
      Exchange answers (c.request peer r s).1 ∧
      (c.request peer r s).1.toOption = answers.getLast?.bind Answer.response? := by
  unfold request Request.verify
  by_cases hpath : r.path.toList.all (· == '/') = true
  · rw [if_pos hpath]
    exact ⟨[], by simp [hpath], by simp, .nil _, rfl⟩
  · rw [if_neg hpath]
    obtain ⟨answers, hne, hanswers⟩ :=
      exists_exchange_attempt peer (c.message r) r.tries (r.tries - 1) s
    exact ⟨answers, fun hs _ => hne hs, hanswers⟩

theorem request_of_ended (c : Client) (peer : Peer σ) (r : Request) {s : Session σ}
    (h : s.ended = true) : (c.request peer r s).2 = s := by
  unfold request
  cases r.verify with
  | error e => rfl
  | ok r => exact congrArg Prod.snd (attempt_of_ended peer (c.message r) r.tries _ h)

end Client

/-- A list of assets that cannot be decoded leaves the outcome open. -/
theorem AssetService.exists_exchange_fetch {σ : Type} (a : AssetService) (peer : Peer σ)
    (r : Request) (s : Session σ) :
    ∃ answers, (s.ended = false → r.path.toList.all (· == '/') = false → answers ≠ []) ∧
      (a.fetch peer r s).2.attempts.toList =
        s.attempts.toList ++ answers.map (⟨a.client.message r, ·⟩) ∧
      Exchange answers (a.fetch peer r s).1 ∧
      (a.fetch peer r s).1.toOption = answers.getLast?.bind Answer.assets? := by
  obtain ⟨answers, hne, hlog, hx, hread⟩ :=
    a.client.exists_exchange_request peer (r.withTries a.config.maxTries.toNat) s
  have hassets : answers.getLast?.bind Answer.assets? =
      (answers.getLast?.bind Answer.response?).bind fun r => r.assets.toOption := by
    rw [Option.bind_assoc]
    rfl
  refine ⟨answers, hne, ?_⟩
  rw [hassets, ← hread]
  unfold fetch
  split
  · next e s' hrequest =>
    rw [hrequest] at hlog hx ⊢
    exact ⟨hlog, ⟨hx.asked_again, fun x hlast hacted e' he =>
      hx.left_open x hlast hacted e' (by rw [← Except.error.inj he])⟩, rfl⟩
  · next response s' hrequest =>
    rw [hrequest] at hlog hx ⊢
    refine ⟨hlog, ⟨hx.asked_again, fun _ _ _ e he => ?_⟩, ?_⟩
    · cases hassets : response.assets with
      | ok assets =>
        rw [hassets] at he
        exact absurd (show Except.ok assets = Except.error e from he) nofun
      | error d =>
        rw [hassets] at he
        rw [← Except.error.inj (show Except.error (HttpError.decode d) = Except.error e from he)]
        rfl
    · show (response.assets.mapError HttpError.decode).toOption = response.assets.toOption
      cases response.assets <;> rfl

/-- To read the reply sends nothing. -/
theorem AssetService.state_fetch {σ : Type} (a : AssetService) (peer : Peer σ) (r : Request)
    (s : Session σ) :
    (a.fetch peer r s).2 = (a.client.request peer (r.withTries a.config.maxTries.toNat) s).2 := by
  unfold fetch
  split
  · next hrequest => rw [hrequest]
  · next hrequest => rw [hrequest]

theorem AssetService.fetch_of_ended {σ : Type} (a : AssetService) (peer : Peer σ) (r : Request)
    {s : Session σ} (h : s.ended = true) : (a.fetch peer r s).2 = s :=
  (a.state_fetch peer r s).trans (a.client.request_of_ended peer _ h)

end AssetHierarchy
