import AssetHierarchy.Proofs.Exchange
import AssetHierarchy.Proofs.Lists
import AssetHierarchy.Proofs.RetryDelay

/-! The attempts of one request, round by round. A round sends the message, gets an answer that asks
for another try, and waits. The first answer that does not ask ends the request with its own result;
if there is none, the last try does. -/
namespace AssetHierarchy

variable {σ : Type}

/-! ### Answers in sequence -/

namespace Peer

/-- What one message comes to. What has no written form does not reach the other side. -/
def exchange (peer : Peer σ) (m : Message) (state : σ) : Answer × σ :=
  if m.isWritable then peer.answer m state else (.fault .unbuildable, state)

/-- The other side after a message was sent some times. -/
def after (peer : Peer σ) (m : Message) (state : σ) : Nat → σ
  | 0 => state
  | k + 1 => (peer.exchange m (peer.after m state k)).2

/-- The answers to a message that is sent over and over. -/
def answers (peer : Peer σ) (m : Message) (state : σ) (k : Nat) : Answer :=
  (peer.exchange m (peer.after m state k)).1

/-- The answers to a message that is sent so many times. -/
def firstAnswers (peer : Peer σ) (m : Message) (state : σ) (k : Nat) : List Answer :=
  (List.range k).map (peer.answers m state)

theorem firstAnswers_eq_nil_iff {peer : Peer σ} {m : Message} {state : σ} {k : Nat} :
    peer.firstAnswers m state k = [] ↔ k = 0 := by
  rw [firstAnswers, List.map_eq_nil_iff, List.range_eq_nil]

/-- So many answers, from the first on, ask for another try. -/
def AllAsk (peer : Peer σ) (m : Message) (state : σ) (k : Nat) : Prop :=
  ∀ j < k, (peer.answers m state j).asksAgain = true

/-- The other side that gives some answers one after another. -/
def recorded (answers : Nat → Answer) : Peer Nat where
  answer _ k := (answers k, k + 1)

/-- Every sequence of answers occurs. -/
theorem answers_recorded (answers : Nat → Answer) {m : Message} (hm : m.isWritable = true) :
    (recorded answers).answers m 0 = answers := by
  have hexchange (k : Nat) : (recorded answers).exchange m k = (answers k, k + 1) := if_pos hm
  have hafter (k : Nat) : (recorded answers).after m 0 k = k := by
    induction k with
    | zero => rfl
    | succ k ih => rw [after, ih, hexchange]
  funext k
  rw [Peer.answers, hafter, hexchange]

end Peer

/-- What the service says when it refuses a request. -/
def refusal (code : Nat) (headers : List (String × String)) (text : Option String) :
    ResponseError :=
  .ofBody code (Response.bodyOfText (text.getD ""))
    ((headers.map Client.readHeader).lookup "x-request-id")

namespace Answer

/-- The time that a reply wants to pass before the next try. -/
def retryAfter? : Answer → Option Double
  | reply _ headers _ =>
    ((headers.map Client.readHeader).lookup "retry-after").bind Double.read?
  | fault _ => none

def delay? (x : Answer) : Option Delay := Delay.beforeRetry? x.retryAfter?

/-- What is asked for is below `2 ^ 64` seconds, if it is a time. -/
def HasDelay (x : Answer) : Prop :=
  ∀ d, x.retryAfter? = some d → d.IsTime → d.absValue < 2 ^ 64

/-- The result of a request that ends with an answer which does not ask for another try. -/
def result : Answer → Except HttpError Response
  | reply code headers text =>
    if 200 ≤ code ∧ code ≤ 299 then .ok (Client.response code headers text)
    else .error (.response (refusal code headers text))
  | fault f => .error (.network f)

theorem delay?_eq_none_iff {x : Answer} : x.delay? = none ↔ ¬x.HasDelay := by
  simp [delay?, Delay.beforeRetry?_eq_none_iff, HasDelay]

theorem HasDelay.exists_delay {x : Answer} (h : x.HasDelay) : ∃ w, x.delay? = some w :=
  Option.ne_none_iff_exists'.mp (delay?_eq_none_iff.not_left.mpr h)

theorem exists_reply_of_asksAgain {x : Answer} (h : x.asksAgain = true) :
    ∃ code headers text, x = .reply code headers text := by
  cases x with
  | fault f => contradiction
  | reply code headers text => exact ⟨code, headers, text, rfl⟩

end Answer

/-! ### Headers -/

/-- Of the values of a name the first stays the first. -/
theorem Response.head?_lookup_groupHeaders (headers : List (String × String)) (name : String) :
    ((groupHeaders headers).lookup name).bind List.head? = headers.lookup name := by
  induction headers using List.reverseRecOn with
  | nil => rfl
  | append_singleton headers h ih =>
    obtain ⟨k, v⟩ := h
    have hstep : groupHeaders (headers ++ [(k, v)]) =
        if ((groupHeaders headers).map (·.1)).contains k then
          (groupHeaders headers).map fun g => (g.1, if g.1 = k then g.2 ++ [v] else g.2)
        else groupHeaders headers ++ [(k, [v])] := by
      unfold groupHeaders
      rw [List.foldl_append]
      simp only [List.foldl_cons, List.foldl_nil]
      congr 2
      funext g
      split <;> rfl
    have hknown := isSome_lookup_iff (groupHeaders headers) k
    rw [List.lookup_append, ← ih, hstep, lookup_singleton]
    split
    · next h =>
      obtain ⟨vs, hvs⟩ := Option.isSome_iff_exists.mp (hknown.mpr h)
      rw [lookup_map_snd fun j vs => if j = k then vs ++ [v] else vs]
      by_cases hk : name = k
      · subst hk
        simp [hvs, List.head?_append]
      · simp [hk]
    · next h =>
      have hnone := Option.not_isSome_iff_eq_none.mp (hknown.not.mpr h)
      rw [List.lookup_append, lookup_singleton]
      by_cases hk : name = k
      · subst hk
        simp [hnone]
      · simp [hk]

namespace Client

theorem error_response (code : Nat) (headers : List (String × String)) (text : Option String) :
    (response code headers text).error = refusal code headers text :=
  congrArg (ResponseError.ofBody code (Response.bodyOfText (text.getD "")))
    (Response.head?_lookup_groupHeaders (headers.map readHeader) "x-request-id")

theorem retryAfter?_response (code : Nat) (headers : List (String × String))
    (text : Option String) :
    (response code headers text).retryAfter? = (Answer.reply code headers text).retryAfter? :=
  congrArg (·.bind Double.read?)
    (Response.head?_lookup_groupHeaders (headers.map readHeader) "retry-after")

/-! ### Verdicts -/

theorem verdict_of_asksAgain {code : Nat} {headers : List (String × String)} {text : Option String}
    (h : (Answer.reply code headers text).asksAgain = true) :
    verdict (.reply code headers text) = .again (response code headers text) := by
  have hok : (response code headers text).isOk = false := Answer.isSuccess_of_asksAgain h
  have hretry : (response code headers text).isRetryable = true := h
  rw [verdict_reply, if_neg (Bool.eq_false_iff.mp hok), if_pos hretry]

theorem verdict_of_not_asksAgain {x : Answer} (h : x.asksAgain = false) :
    verdict x = .settled x.result := by
  cases x with
  | fault f => rfl
  | reply code headers text =>
    have hretry : ¬(response code headers text).isRetryable = true := Bool.eq_false_iff.mp h
    have hok : (response code headers text).isOk = true ↔ 200 ≤ code ∧ code ≤ 299 := by
      rw [Response.isOk, Bool.and_eq_true, decide_eq_true_iff, decide_eq_true_iff]
      rfl
    rw [verdict_reply, if_neg hretry, error_response, Answer.result]
    by_cases hcode : 200 ≤ code ∧ code ≤ 299
    · rw [if_pos hcode, if_pos (hok.mpr hcode)]
    · rw [if_neg hcode, if_neg (hok.not.mpr hcode)]

end Client

/-! ### Rounds -/

namespace Session

variable (peer : Peer σ) (m : Message) (s : Session σ)

/-- The session after some rounds. -/
def rounds : Nat → Session σ
  | 0 => s
  | k + 1 =>
    let round := (rounds k).send peer m
    round.2.wait (round.1.delay?.getD .oneSecond)

/-- What the session has seen after some rounds and one more attempt. -/
def lastRound (k : Nat) : Session σ := ((s.rounds peer m k).send peer m).2

variable {peer m s}

/-- The fields of a session after some rounds. -/
structure Rounds (peer : Peer σ) (m : Message) (s : Session σ) (k : Nat) (s' : Session σ) :
    Prop where
  peer_eq : s'.peer = peer.after m s.peer k
  attempts : s'.attempts.toList =
    s.attempts.toList ++ (List.range k).map fun j => ⟨m, peer.answers m s.peer j⟩
  waits : s'.waits.toList = s.waits.toList ++
    (List.range k).map fun j => (peer.answers m s.peer j).delay?.getD .oneSecond
  ended : s'.ended = false

theorem Rounds.send_eq {k : Nat} {s' : Session σ} (hs : Rounds peer m s k s') :
    s'.send peer m = (peer.answers m s.peer k,
      { s' with
        peer := peer.after m s.peer (k + 1)
        attempts := s'.attempts.push ⟨m, peer.answers m s.peer k⟩ }) := by
  rw [send, if_neg (Bool.eq_false_iff.mp hs.ended), hs.peer_eq]
  rfl

theorem rounds_spec (h : s.ended = false) (k : Nat) : Rounds peer m s k (s.rounds peer m k) := by
  induction k with
  | zero => exact ⟨rfl, by simp [rounds], by simp [rounds], h⟩
  | succ k ih =>
    rw [rounds, ih.send_eq]
    constructor
    · rfl
    · simp [wait, ih.attempts, List.range_succ]
    · simp [wait, ih.waits, List.range_succ]
    · exact ih.ended

theorem lastRound_eq (h : s.ended = false) (k : Nat) :
    s.lastRound peer m k = { s.rounds peer m k with
      peer := peer.after m s.peer (k + 1)
      attempts := (s.rounds peer m k).attempts.push ⟨m, peer.answers m s.peer k⟩ } :=
  congrArg Prod.snd (rounds_spec h k).send_eq

theorem send_rounds (h : s.ended = false) (k : Nat) :
    (s.rounds peer m k).send peer m = (peer.answers m s.peer k, s.lastRound peer m k) := by
  rw [(rounds_spec h k).send_eq, lastRound_eq h]

theorem rounds_succ (h : s.ended = false) (k : Nat) : s.rounds peer m (k + 1) =
    (s.lastRound peer m k).wait ((peer.answers m s.peer k).delay?.getD .oneSecond) := by
  rw [rounds, send_rounds h]

/-- The message was sent so many times, and nothing else was. -/
def Made (peer : Peer σ) (m : Message) (s : Session σ) (n : Nat) (s' : Session σ) : Prop :=
  s'.attempts.toList =
    s.attempts.toList ++ (List.range n).map fun j => ⟨m, peer.answers m s.peer j⟩

theorem made_zero (peer : Peer σ) (m : Message) (s : Session σ) : Made peer m s 0 s :=
  (List.append_nil s.attempts.toList).symm

/-- The answers that are on record are those of the other side. -/
theorem Made.answers_eq {n : Nat} {s' : Session σ} (h : Made peer m s n s') {answers : List Answer}
    (hlog : s'.attempts.toList = s.attempts.toList ++ answers.map (⟨m, ·⟩)) :
    answers = peer.firstAnswers m s.peer n := by
  have hinjective : Function.Injective (⟨m, ·⟩ : Answer → Attempt) :=
    fun _ _ h => (Attempt.mk.inj h).2
  have hsame : answers.map (⟨m, ·⟩) =
      (peer.firstAnswers m s.peer n).map (⟨m, ·⟩ : Answer → Attempt) := by
    rw [Peer.firstAnswers, List.map_map]
    exact List.append_cancel_left (hlog.symm.trans h)
  exact List.map_injective_iff.mpr hinjective hsame

theorem made_lastRound (h : s.ended = false) (k : Nat) :
    Made peer m s (k + 1) (s.lastRound peer m k) := by
  rw [Made, lastRound_eq h]
  simp [(rounds_spec h k).attempts, List.range_succ]

end Session

namespace Client

variable {peer : Peer σ} {m : Message} {s : Session σ} {tries left k : Nat}

/-! ### One try -/

theorem attempt_of_not_asksAgain {x : Answer} {s' : Session σ} (hsend : s.send peer m = (x, s'))
    (hx : x.asksAgain = false) : attempt peer m tries left s = (x.result, s') := by
  unfold attempt
  rw [hsend]
  simp only [verdict_of_not_asksAgain hx]

theorem attempt_last {code : Nat} {headers : List (String × String)} {text : Option String}
    {s' : Session σ} (hsend : s.send peer m = (.reply code headers text, s'))
    (hx : (Answer.reply code headers text).asksAgain = true) :
    attempt peer m tries 0 s =
      (.error (if tries = 1 then .response (refusal code headers text)
        else .maxRetries tries (refusal code headers text)), s') := by
  unfold attempt
  rw [hsend]
  simp only [verdict_of_asksAgain hx, exhausted, error_response]

theorem attempt_succ {x : Answer} {s' : Session σ} (hsend : s.send peer m = (x, s'))
    (hx : x.asksAgain = true) :
    attempt peer m tries (left + 1) s = match x.delay? with
      | none => (.error (.network .lost), { s' with ended := true })
      | some d => attempt peer m tries left (s'.wait d) := by
  obtain ⟨code, headers, text, rfl⟩ := Answer.exists_reply_of_asksAgain hx
  rw [attempt, hsend]
  simp only [verdict_of_asksAgain hx, retryAfter?_response]
  rfl

/-! ### All tries -/

/-- The answer leads to another try if one is left. -/
def GoesOn (peer : Peer σ) (m : Message) (state : σ) (k : Nat) : Prop :=
  (peer.answers m state k).asksAgain = true ∧ (peer.answers m state k).HasDelay

theorem attempt_rounds (h : s.ended = false) (hk : ∀ j < k, GoesOn peer m s.peer j) :
    attempt peer m tries (left + k) s = attempt peer m tries left (s.rounds peer m k) := by
  -- the last round is split off: it is the one that starts from where the others lead
  induction k generalizing left with
  | zero => rfl
  | succ k ih =>
    obtain ⟨hagain, hdelay⟩ := hk k (Nat.lt_succ_self k)
    obtain ⟨w, hw⟩ := hdelay.exists_delay
    rw [show left + (k + 1) = left + 1 + k by omega, ih fun j hj => hk j (Nat.lt_succ_of_lt hj),
      attempt_succ (Session.send_rounds h k) hagain, hw, Session.rounds_succ h, hw]
    rfl

theorem attempt_of_settled (h : s.ended = false) (hleft : k ≤ left)
    (hk : ∀ j < k, GoesOn peer m s.peer j) (hx : (peer.answers m s.peer k).asksAgain = false) :
    attempt peer m tries left s = ((peer.answers m s.peer k).result, s.lastRound peer m k) := by
  rw [show left = left - k + k by omega, attempt_rounds h hk,
    attempt_of_not_asksAgain (Session.send_rounds h k) hx]

theorem attempt_of_exhausted (h : s.ended = false) (hk : ∀ j < left, GoesOn peer m s.peer j)
    {code : Nat} {headers : List (String × String)} {text : Option String}
    (hx : (peer.answers m s.peer left).asksAgain = true)
    (hreply : peer.answers m s.peer left = .reply code headers text) :
    attempt peer m tries left s =
      (.error (if tries = 1 then .response (refusal code headers text)
        else .maxRetries tries (refusal code headers text)), s.lastRound peer m left) := by
  have hsend : (s.rounds peer m left).send peer m =
      (peer.answers m s.peer left, s.lastRound peer m left) := Session.send_rounds h left
  rw [hreply] at hsend hx
  have hrun : attempt peer m tries (0 + left) s =
      attempt peer m tries 0 (s.rounds peer m left) := attempt_rounds h hk
  rw [← Nat.zero_add left, hrun, attempt_last hsend hx, Nat.zero_add]

theorem attempt_of_overlong (h : s.ended = false) (hleft : k < left)
    (hk : ∀ j < k, GoesOn peer m s.peer j) (hx : (peer.answers m s.peer k).asksAgain = true)
    (hd : ¬(peer.answers m s.peer k).HasDelay) :
    (attempt peer m tries left s).2 = { s.lastRound peer m k with ended := true } := by
  rw [show left = left - k - 1 + 1 + k by omega, attempt_rounds h hk,
    attempt_succ (Session.send_rounds h k) hx, Answer.delay?_eq_none_iff.mpr hd]

theorem request_of_verify (c : Client) (peer : Peer σ) {r : Request} (s : Session σ)
    (h : r.verify = .ok r) :
    c.request peer r s = attempt peer (c.message r) r.tries (r.tries - 1) s := by
  rw [request, h]

/-- A request is sent, always the same, until an answer does not ask for another try, and ends with
what that answer says. If every try that it has is answered by asking for another, it ends with the
refusal in the last of these answers. -/
theorem request_exact (c : Client) (peer : Peer σ) (r : Request) (s : Session σ)
    (hverify : r.verify = .ok r) (htries : 1 ≤ r.tries) (hopen : s.ended = false)
    (hdelay : ∀ k, k + 1 < r.tries → peer.AllAsk (c.message r) s.peer (k + 1) →
      (peer.answers (c.message r) s.peer k).HasDelay) :
    let answers := peer.answers (c.message r) s.peer
    let run := c.request peer r s
    (∀ k < r.tries, peer.AllAsk (c.message r) s.peer k → ∀ code headers text,
      answers k = .reply code headers text → code ∉ [429, 502, 503, 504] →
        s.Made peer (c.message r) (k + 1) run.2 ∧
        run.1 = if 200 ≤ code ∧ code ≤ 299 then .ok (response code headers text)
          else .error (.response (refusal code headers text))) ∧
    (∀ k < r.tries, peer.AllAsk (c.message r) s.peer k → ∀ f, answers k = .fault f →
      s.Made peer (c.message r) (k + 1) run.2 ∧ run.1 = .error (.network f)) ∧
    (peer.AllAsk (c.message r) s.peer r.tries → ∃ code headers text,
      answers (r.tries - 1) = .reply code headers text ∧
      s.Made peer (c.message r) r.tries run.2 ∧
      run.1 = .error (if r.tries = 1 then .response (refusal code headers text)
        else .maxRetries r.tries (refusal code headers text))) := by
  intro answers run
  have hrun : run = attempt peer (c.message r) r.tries (r.tries - 1) s :=
    c.request_of_verify peer s hverify
  have hrounds {k : Nat} (hk : k < r.tries) (hall : peer.AllAsk (c.message r) s.peer k) :
      ∀ j < k, GoesOn peer (c.message r) s.peer j := fun j hj =>
    ⟨hall j hj, hdelay j (by omega) fun i hi => hall i (by omega)⟩
  have hsettled {k : Nat} (hk : k < r.tries) (hall : peer.AllAsk (c.message r) s.peer k)
      (hx : (answers k).asksAgain = false) :
      s.Made peer (c.message r) (k + 1) run.2 ∧ run.1 = (answers k).result := by
    rw [hrun, attempt_of_settled hopen (by omega) (hrounds hk hall) hx]
    dsimp only
    exact ⟨Session.made_lastRound hopen k, rfl⟩
  refine ⟨?_, ?_, ?_⟩
  · intro k hk hall code headers text hreply hcode
    have hx : (answers k).asksAgain = false := by
      rw [hreply]
      simpa [Answer.asksAgain, Answer.status?] using hcode
    have h := hsettled hk hall hx
    rwa [hreply] at h
  · intro k hk hall f hfault
    have h := hsettled hk hall (by rw [hfault]; rfl)
    rwa [hfault] at h
  · intro hall
    have hx : (answers (r.tries - 1)).asksAgain = true := hall _ (by omega)
    obtain ⟨code, headers, text, hreply⟩ := Answer.exists_reply_of_asksAgain hx
    have hbefore : peer.AllAsk (c.message r) s.peer (r.tries - 1) := fun j hj =>
      hall j (by omega)
    have hmade : s.Made peer (c.message r) (r.tries - 1 + 1)
        (s.lastRound peer (c.message r) (r.tries - 1)) := Session.made_lastRound hopen _
    rw [Nat.sub_add_cancel htries] at hmade
    rw [hrun, attempt_of_exhausted hopen (hrounds (by omega) hbefore) hx hreply]
    exact ⟨code, headers, text, hreply, hmade, rfl⟩

/-! ### Three tries -/

/-- The client of one project, and a request that is made three times at most. -/
def uploader : Client := ⟨"http://h", "/api/v1/projects/p", [("Accept", "application/json")]⟩

def threeTries : Request := (Request.post "assets" (.object [])).withTries 3

theorem verify_threeTries : threeTries.verify = .ok threeTries := if_neg (by decide +kernel)

/-- A service that is busy twice and then creates what it was sent. -/
def busyTwice : Nat → Answer
  | 0 => .reply 429 [("Retry-After", "2")] (some "")
  | 1 => .reply 503 [] (some "")
  | _ => .reply 201 [] (some "")

theorem request_exact_busyTwice :
    let s : Session Nat := { peer := 0 }
    let run := uploader.request (Peer.recorded busyTwice) threeTries s
    threeTries.verify = .ok threeTries ∧ 1 ≤ threeTries.tries ∧ s.ended = false ∧
      (∀ k < 2, (busyTwice k).asksAgain = true ∧ (busyTwice k).HasDelay) ∧
      run.1 = .ok (response 201 [] (some "")) ∧
      run.2.attempts.toList =
        (List.range 3).map fun j => ⟨uploader.message threeTries, busyTwice j⟩ := by
  intro s run
  have hanswers : (Peer.recorded busyTwice).answers (uploader.message threeTries) 0 = busyTwice :=
    Peer.answers_recorded busyTwice (by decide +kernel)
  have hbusy : ∀ k < 2, (busyTwice k).asksAgain = true ∧ (busyTwice k).HasDelay := by
    have hdelay : ∀ k < 2, (busyTwice k).delay? ≠ none := by decide +kernel
    exact fun k hk => ⟨by decide +revert, Answer.delay?_eq_none_iff.not_left.mp (hdelay k hk)⟩
  have hall : (Peer.recorded busyTwice).AllAsk (uploader.message threeTries) 0 2 := by
    intro j hj
    rw [hanswers]
    exact (hbusy j hj).1
  obtain ⟨hreply, -, -⟩ := request_exact uploader (Peer.recorded busyTwice) threeTries s
    verify_threeTries (by decide) rfl fun k hk _ => by
      rw [hanswers]
      exact (hbusy k (Nat.lt_of_succ_lt_succ hk)).2
  obtain ⟨hmade, hresult⟩ := hreply 2 (by decide) hall 201 [] (some "") (congrFun hanswers 2)
    (by decide)
  rw [Session.Made, hanswers] at hmade
  exact ⟨verify_threeTries, by decide, rfl, hbusy, hresult, hmade⟩

end Client

end AssetHierarchy
