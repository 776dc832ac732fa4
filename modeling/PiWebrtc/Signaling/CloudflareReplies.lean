import PiWebrtc.Signaling.CloudflareService

namespace PiWebrtc.Signaling

open Transition

/-!
# Which offer a reply belongs to

The worker's replies do not say which offer they reply to: the service counts the offers
that were not replied to and acts on a reply that brings the count to zero.  `OnJoined` sets
the count to zero, since replies to offers on the old connection are lost, but offers may
have gone out on the new connection before.  `answers_matched` shows that a reply is taken
for that of another offer in no other way.
-/

/-- What is asked for: every reply that was acted upon replied to the last offer that was
    sent for the publication of that moment. -/
def AnswersMatched (s : CloudflareService) : Prop :=
  ∀ x ∈ s.acted, x.last = some x.offer ∧ x.offer.publication = x.publication

/-- Task `i` is going to send an offer. -/
def CloudflareService.sendsOffer (s : CloudflareService) (i : ℕ) : Bool :=
  match s.posts[i]? with
  | some (.offer publication tracks) =>
    !s.stopped && publication = s.publication && tracks && s.canSend
  | _ => false

/-- The condition: when the worker says that the device has joined, at most one offer is
    outstanding on the connection; and an offer is sent only while no more are outstanding
    than are counted. -/
def OffersCounted (s : CloudflareService) : CloudflareEvent → Prop
  | .joined _ => s.outstanding.length ≤ 1
  | .post i => s.sendsOffer i = true → s.outstanding.length ≤ s.unanswered
  | _ => True

instance (s : CloudflareService) : ∀ a, Decidable (OffersCounted s a)
  | .joined _ => inferInstanceAs (Decidable (_ ≤ _))
  | .post _ => inferInstanceAs (Decidable (_ → _))
  | .connect | .disconnect | .token _ _ | .opened | .closed _ | .timer _ _ _ _ | .wake _ | .sleep
  | .answer _ | .error _ _ | .localOffer _ _ | .peerFailed _ => isTrue trivial

/-- **The invariant.** No more offers are outstanding than are counted, or at most one is;
    the last one outstanding is the last one sent; and if an offer was sent for the current
    publication, that is the last one sent. -/
structure MatchInv (s : CloudflareService) : Prop where
  counted : s.outstanding.length ≤ s.unanswered ∨ s.outstanding.length ≤ 1
  last : ∀ o, s.outstanding.getLast? = some o → s.sent.head? = some o
  current : s.offerSent = true → ∃ o, s.sent.head? = some o ∧ o.publication = s.publication
  matched : AnswersMatched s

/-! ### Handlers that send no offer and get no reply -/

/-- `s'` has the offers and replies of `s`, and the publication that an offer was sent for,
    if it has sent any. -/
structure SameOffers (s s' : CloudflareService) : Prop where
  outstanding : s'.outstanding = s.outstanding
  unanswered : s'.unanswered = s.unanswered
  sent : s'.sent = s.sent
  acted : s'.acted = s.acted
  offerSent : s'.offerSent = true → s.offerSent = true ∧ s'.publication = s.publication

namespace SameOffers

variable {s s' s'' : CloudflareService}

/-- Nothing is done. -/
theorem refl (s : CloudflareService) : SameOffers s s :=
  ⟨rfl, rfl, rfl, rfl, fun h => ⟨h, rfl⟩⟩

/-- One thing is done after the other. -/
theorem trans (h : SameOffers s s') (h' : SameOffers s' s'') : SameOffers s s'' where
  outstanding := h'.outstanding.trans h.outstanding
  unanswered := h'.unanswered.trans h.unanswered
  sent := h'.sent.trans h.sent
  acted := h'.acted.trans h.acted
  offerSent hsent := by
    obtain ⟨hsent', hp'⟩ := h'.offerSent hsent
    obtain ⟨hsent'', hp⟩ := h.offerSent hsent'
    exact ⟨hsent'', hp'.trans hp⟩

/-- A timer has nothing to do with offers. -/
theorem wait (s : CloudflareService) (w : CloudflareWait) : SameOffers s (s.wait w) :=
  ⟨rfl, rfl, rfl, rfl, fun h => ⟨h, rfl⟩⟩

theorem dropSocket (s : CloudflareService) : SameOffers s s.dropSocket :=
  ⟨rfl, rfl, rfl, rfl, fun h => ⟨h, rfl⟩⟩

/-- A new connection has asked for a token only. -/
theorem startConnection (s : CloudflareService) : SameOffers s s.startConnection := by
  rw [CloudflareService.startConnection]
  split
  · exact refl s
  · exact ⟨rfl, rfl, rfl, rfl, fun h => ⟨h, rfl⟩⟩

/-- It may have to wait. -/
theorem scheduleReconnect (s : CloudflareService) : SameOffers s s.scheduleReconnect := by
  rw [CloudflareService.scheduleReconnect]
  split
  · exact refl s
  · exact ⟨rfl, rfl, rfl, rfl, fun h => ⟨h, rfl⟩⟩

/-- A publication that has ended has sent no offer. -/
theorem stopPublishing (s : CloudflareService) : SameOffers s s.stopPublishing :=
  ⟨rfl, rfl, rfl, rfl, fun h => by cases h⟩

/-- What is not published any more is not sent either. -/
theorem endPublishing (s : CloudflareService) : SameOffers s s.endPublishing :=
  ⟨rfl, rfl, rfl, rfl, fun h => by cases h⟩

/-- It may be tried again. -/
theorem retryPublishing (s : CloudflareService) : SameOffers s s.retryPublishing := by
  rw [CloudflareService.retryPublishing]
  split
  · exact (stopPublishing s).trans (wait _ _)
  · exact refl s

/-- An offer is posted, and not sent yet. -/
theorem startPublishing (s : CloudflareService) (created : Bool) :
    SameOffers s (s.startPublishing created) := by
  rw [CloudflareService.startPublishing]
  split
  · exact (stopPublishing s).trans ⟨rfl, rfl, rfl, rfl, fun h => ⟨h, rfl⟩⟩
  · exact (stopPublishing s).trans (retryPublishing _)

/-- None of the waits sends an offer. -/
theorem onTimer (s : CloudflareService) (created down : Bool) (w : CloudflareWait) :
    SameOffers s (s.onTimer created down w) := by
  cases w with
  | reconnect => exact startConnection s
  | retry =>
    rw [CloudflareService.onTimer]
    split
    · exact refl s
    · exact startPublishing s created
  | health publication =>
    rw [CloudflareService.onTimer]
    split
    · exact refl s
    split
    · exact retryPublishing s
    · exact wait s _

/-- The offers of the connection are forgotten when the next one is joined. -/
theorem onSocketClosed (s : CloudflareService) (replaced : Bool) :
    SameOffers s (s.onSocketClosed replaced) := by
  rw [CloudflareService.onSocketClosed]
  split
  · exact ((dropSocket s).trans (endPublishing _)).trans (scheduleReconnect _)
  · exact (dropSocket s).trans (scheduleReconnect _)

theorem disconnect (s : CloudflareService) : SameOffers s s.disconnect :=
  ((endPublishing s).trans (dropSocket _)).trans ⟨rfl, rfl, rfl, rfl, fun h => ⟨h, rfl⟩⟩

/-- A wake posts an offer. -/
theorem onWake (s : CloudflareService) (created : Bool) : SameOffers s (s.onWake created) :=
  have hflag : SameOffers s { s with publishing := true } :=
    ⟨rfl, rfl, rfl, rfl, fun h => ⟨h, rfl⟩⟩
  hflag.trans (startPublishing _ created)

/-- **What leaves the offers alone** keeps the invariant. -/
theorem matchInv (hw : SameOffers s s') (h : MatchInv s) : MatchInv s' where
  counted := by
    rw [hw.outstanding, hw.unanswered]
    exact h.counted
  last := by
    rw [hw.outstanding, hw.sent]
    exact h.last
  current hsent := by
    obtain ⟨hsent', hp⟩ := hw.offerSent hsent
    rw [hw.sent, hp]
    exact h.current hsent'
  matched := by
    rw [AnswersMatched, hw.acted]
    exact h.matched

end SameOffers

/-! ### Offers and replies -/

namespace MatchInv

variable {s s' : CloudflareService}

/-- On a new connection nothing is outstanding. -/
theorem openSocket (h : MatchInv s) (connection : ℕ) : MatchInv (s.openSocket connection) where
  counted := .inr (Nat.zero_le 1)
  last o ho := by cases ho
  current := h.current
  matched := h.matched

theorem onToken (h : MatchInv s) (connection : ℕ) (usable : Bool) :
    MatchInv (s.onToken connection usable) := by
  rw [CloudflareService.onToken]
  split
  · exact h
  split
  · exact h.openSocket connection
  · exact (SameOffers.scheduleReconnect s).matchInv h

/-- An offer is sent, and counted with all that are outstanding. -/
theorem sendOffer (h : MatchInv s) (hcount : s.outstanding.length ≤ s.unanswered) :
    MatchInv s.sendOffer where
  counted := by
    -- nothing was left uncounted, and the new offer is counted
    refine .inl ?_
    show (s.outstanding ++ [SentOffer.mk s.sent.length s.publication]).length ≤ s.unanswered + 1
    rw [List.length_append, List.length_singleton]
    exact Nat.succ_le_succ hcount
  last o ho := by
    have ho' : (s.outstanding ++ [SentOffer.mk s.sent.length s.publication]).getLast? = some o := ho
    rw [List.getLast?_concat] at ho'
    exact ho'
  current _ := ⟨⟨s.sent.length, s.publication⟩, rfl, rfl⟩
  matched := h.matched

/-- An offer that is sent is counted. -/
theorem runPost (h : MatchInv s) {p : CloudflarePost}
    (hcount : ∀ publication, p = .offer publication true → s.stopped = false →
      publication = s.publication → s.canSend = true → s.outstanding.length ≤ s.unanswered) :
    MatchInv (s.runPost p) := by
  cases p with
  | offer publication tracks =>
    rw [CloudflareService.runPost, CloudflareService.onLocalOffer]
    split
    · exact h
    case isFalse hnow =>
      obtain ⟨hstopped, hp⟩ : s.stopped = false ∧ publication = s.publication := by
        simpa using hnow
      split
      · exact (SameOffers.retryPublishing s).matchInv h
      case isFalse htracks =>
        split
        case isTrue hsend =>
          -- only an offer that is sent now needs the condition
          refine h.sendOffer (hcount publication ?_ hstopped hp hsend)
          rw [eq_true_of_ne_false htracks]
        case isFalse => exact h
  | failed publication =>
    rw [CloudflareService.runPost]
    split
    · exact h
    · exact (SameOffers.retryPublishing s).matchInv h

/-- The count starts over. -/
theorem onJoined (h : MatchInv s) (hone : s.outstanding.length ≤ 1) (sleeping : Bool) :
    MatchInv (s.onJoined sleeping) := by
  have hzero : MatchInv { s with unanswered := 0 } := ⟨.inr hone, h.last, h.current, h.matched⟩
  rw [CloudflareService.onJoined]
  split
  · exact (SameOffers.endPublishing _).matchInv hzero
  · exact hzero

section Reply

variable {offer : SentOffer} {rest : List SentOffer} (ho : s.outstanding = offer :: rest)

include ho

/-- A reply takes the oldest offer. -/
theorem countReply (h : MatchInv s) : MatchInv s.countReply where
  counted := by
    have hcounted := h.counted
    show s.outstanding.tail.length ≤ s.unanswered - 1 ∨ s.outstanding.tail.length ≤ 1
    rw [ho, List.length_cons] at hcounted
    rw [ho, List.tail_cons]
    -- one offer is answered and one reply is counted, unless the count was zero before
    omega
  last o hlast := by
    have hlast' : s.outstanding.tail.getLast? = some o := hlast
    refine h.last o ?_
    rw [ho, List.tail_cons] at hlast'
    rw [ho]
    cases rest with
    | nil => cases hlast'
    | cons o' rest => rw [List.getLast?_cons_cons, hlast']
  current := h.current
  matched := h.matched

/-- The reply that brings the count to zero is the one to the last offer. -/
theorem act (h : MatchInv s) (hsent : s.offerSent = true) (hcount : ¬ 0 < s.unanswered - 1) :
    MatchInv (s.countReply.act offer) := by
  have hcounted := h.counted
  rw [ho, List.length_cons] at hcounted
  -- no other offer is outstanding: this one is the last that was sent
  obtain rfl : rest = [] := List.length_eq_zero_iff.mp (by omega)
  have hhead : s.sent.head? = some offer := h.last offer (by rw [ho]; rfl)
  -- and the offer of the current publication was sent, so it is that one
  obtain ⟨o, ho', hp⟩ := h.current hsent
  obtain rfl : offer = o := Option.some.inj (hhead.symm.trans ho')
  have hlast : s.countReply.lastOffer = some offer := by
    obtain ⟨tail, htail⟩ := List.head?_eq_some_iff.mp hhead
    show s.sent.find? (fun o => o.publication = s.publication) = some offer
    rw [htail, List.find?_cons_of_pos (by simpa using hp)]
  have hreply := countReply ho h
  refine ⟨hreply.counted, hreply.last, hreply.current, fun x hx => ?_⟩
  rcases List.mem_cons.mp hx with rfl | hx
  · exact ⟨hlast, hp⟩
  · exact h.matched x hx

/-- An answer is acted on for the offer that it answers. -/
theorem onAnswer (h : MatchInv s) (generation : ℕ) : MatchInv (s.onAnswer offer generation) := by
  rw [CloudflareService.onAnswer]
  split
  · exact countReply ho h
  case isFalse hnow =>
    simp only [not_or] at hnow
    obtain ⟨-, hsent, hcount⟩ := hnow
    have hact := act ho h (eq_true_of_ne_false hsent) hcount
    exact ⟨hact.counted, hact.last, hact.current, hact.matched⟩

/-- An error takes its offer. -/
theorem onOfferError (h : MatchInv s) (code : ErrorCode) :
    MatchInv (s.onOfferError offer code) := by
  rw [CloudflareService.onOfferError]
  split
  · exact countReply ho h
  case isFalse hnow =>
    simp only [not_or] at hnow
    have hact := act ho h (eq_true_of_ne_false hnow.1) hnow.2
    split
    · exact (SameOffers.endPublishing _).matchInv hact
    · exact (SameOffers.retryPublishing _).matchInv hact

end Reply

/-! ### All runs -/

/-- Every event that meets the condition keeps the invariant. -/
theorem step (h : MatchInv s) {a : CloudflareEvent} (hg : OffersCounted s a)
    (hs : s.step a = some s') : MatchInv s' := by
  cases a with
  | connect =>
    cases hs
    exact (SameOffers.startConnection s).matchInv h
  | disconnect =>
    cases hs
    exact (SameOffers.disconnect s).matchInv h
  | token i usable =>
    obtain ⟨connection, -, rfl⟩ := Option.map_eq_some_iff.mp hs
    have herase : MatchInv { s with tokenRequests := s.tokenRequests.eraseIdx i } :=
      ⟨h.counted, h.last, h.current, h.matched⟩
    exact herase.onToken connection usable
  | opened =>
    obtain ⟨socket, -, rfl⟩ := Option.map_eq_some_iff.mp hs
    exact ⟨h.counted, h.last, h.current, h.matched⟩
  | closed replaced =>
    rw [CloudflareService.step, Option.ite_none_right_eq_some, Option.some.injEq] at hs
    exact hs.2 ▸ (SameOffers.onSocketClosed s replaced).matchInv h
  | timer i fired created down =>
    obtain ⟨w, -, rfl⟩ := Option.map_eq_some_iff.mp hs
    have herase : MatchInv { s with waits := s.waits.eraseIdx i } :=
      ⟨h.counted, h.last, h.current, h.matched⟩
    split
    · exact (SameOffers.onTimer _ created down w).matchInv herase
    · exact herase
  | joined sleeping =>
    rw [CloudflareService.step, Option.ite_none_right_eq_some, Option.some.injEq] at hs
    exact hs.2 ▸ h.onJoined hg sleeping
  | wake created =>
    rw [CloudflareService.step, Option.ite_none_right_eq_some, Option.some.injEq] at hs
    exact hs.2 ▸ (SameOffers.onWake s created).matchInv h
  | sleep =>
    rw [CloudflareService.step, Option.ite_none_right_eq_some, Option.some.injEq] at hs
    exact hs.2 ▸ (SameOffers.endPublishing s).matchInv h
  | answer generation =>
    rw [CloudflareService.step, Option.ite_none_right_eq_some] at hs
    obtain ⟨offer, hoffer, rfl⟩ := Option.map_eq_some_iff.mp hs.2
    obtain ⟨rest, ho⟩ := List.head?_eq_some_iff.mp hoffer
    exact onAnswer ho h generation
  | error request code =>
    rw [CloudflareService.step, Option.ite_none_left_eq_some] at hs
    obtain ⟨-, hs⟩ := hs
    split at hs
    case isTrue =>
      obtain ⟨offer, hoffer, rfl⟩ := Option.map_eq_some_iff.mp hs
      obtain ⟨rest, ho⟩ := List.head?_eq_some_iff.mp hoffer
      exact onOfferError ho h code
    case isFalse =>
      cases hs
      exact h
  | localOffer publication tracks =>
    rw [CloudflareService.step, Option.ite_none_right_eq_some, Option.some.injEq] at hs
    exact hs.2 ▸ ⟨h.counted, h.last, h.current, h.matched⟩
  | peerFailed publication =>
    rw [CloudflareService.step, Option.ite_none_right_eq_some, Option.some.injEq] at hs
    exact hs.2 ▸ ⟨h.counted, h.last, h.current, h.matched⟩
  | post i =>
    obtain ⟨p, hp, rfl⟩ := Option.map_eq_some_iff.mp hs
    have herase : MatchInv { s with posts := s.posts.eraseIdx i } :=
      ⟨h.counted, h.last, h.current, h.matched⟩
    refine herase.runPost fun publication hoffer hstopped hcurrent hsend => hg ?_
    have hsend' : s.canSend = true := hsend
    have hstopped' : s.stopped = false := hstopped
    have hcurrent' : publication = s.publication := hcurrent
    simp [CloudflareService.sendsOffer, hp, hoffer, hstopped', hcurrent', hsend']

theorem init : MatchInv cloudflareService.init where
  counted := .inr (Nat.zero_le 1)
  last o ho := by cases ho
  current h := by cases h
  matched x hx := by cases hx

end MatchInv

/-- **Answers are matched to their offers.** In every run in which the device joins with at
    most one offer outstanding and sends an offer only while no more are outstanding than
    are counted, a reply is acted upon only if it replies to the last offer that was sent
    for the current publication. -/
theorem answers_matched (as : List CloudflareEvent) (s : CloudflareService)
    (hcounted : cloudflareService.Guarded OffersCounted cloudflareService.init as)
    (hrun : cloudflareService.run as = some s) : AnswersMatched s := by
  have hinv : MatchInv s := by
    refine Machine.guarded_invariant (M := cloudflareService) ?_ MatchInv.init hcounted hrun
    intro s a s' h hg hstep
    exact h.step hg hstep
  exact hinv.matched

/-- The device connects and joins, and the worker wakes it: publication 1 gets a peer. -/
def joinedAndWoken : List CloudflareEvent :=
  [.connect, .token 0 true, .opened, .joined false, .wake true]

/-- Two publications follow each other with an offer each; the reply to the first one's
    offer is ignored, and the answer to the second one's is acted upon. -/
def wokenAgain : List CloudflareEvent :=
  joinedAndWoken ++
    [.localOffer 1 true, .post 0, .wake true, .localOffer 2 true, .post 0, .error "offer" .other,
     .answer 7]

theorem answers_matched_wokenAgain :
    ∃ s, cloudflareService.run wokenAgain = some s ∧ s.generation = 7 ∧
      s.acted = [⟨⟨1, 2⟩, 2, some ⟨1, 2⟩⟩] ∧ AnswersMatched s :=
  ⟨_, rfl, rfl, rfl, answers_matched wokenAgain _ (by decide) rfl⟩

/-- The connection is lost before the offer is ready, and the offer goes out on the next one
    before the worker says that the device has joined.  The worker wakes the device again,
    which sends another offer, and then the worker answers the first one. -/
def offeredBeforeJoined : List CloudflareEvent :=
  joinedAndWoken ++
    [.closed false, .timer 1 true true false, .token 0 true, .opened, .localOffer 1 true, .post 0,
     .joined false, .wake true, .localOffer 2 true, .post 0, .answer 7]

/-- The answer to the first publication's offer is given to the peer of the second one. -/
theorem not_answersMatched_offeredBeforeJoined :
    ∃ s, cloudflareService.run offeredBeforeJoined = some s ∧
      s.acted = [⟨⟨0, 1⟩, 2, some ⟨1, 2⟩⟩] ∧ ¬ AnswersMatched s := by
  refine ⟨_, rfl, rfl, fun h => ?_⟩
  exact absurd (h _ List.mem_cons_self).1 (by decide)

end PiWebrtc.Signaling
