import FishMarket.Proofs.Settlement.Progress

/-! # Courses that keep to the protocol

A routine that keeps to the protocol of a settlement does so whatever happens between its calls. Its
acts tell how far it has come; the handles that it has opened are its own, and nobody else names
them. On these terms what it has staged stays as it is until it goes on.
-/

namespace FishMarket

open Calendar

variable {α : Type}

/-- Handles are given out in increasing order. -/
theorem Market.Change.lastTransaction_le {market after : Market} {named : Option TransactionId}
    (hchange : Market.Change market named after) :
    market.lastTransaction ≤ after.lastTransaction := by
  cases hchange with
  | begun => exact Int.le_add_one (Int.le_refl market.lastTransaction)
  | _ => exact Int.le_refl _

namespace Service

/-- A transaction that is opened gets the next handle. -/
theorem receive_begun {service : Service} {call : ServiceCall} {reception : Reception}
    {transaction : TransactionId}
    (hbegun : call.begun? (service.receive call reception).1 = some transaction) :
    transaction = service.market.lastTransaction + 1 ∧
      (service.receive call reception).2.market.lastTransaction = transaction := by
  cases call with
  | cache call => cases hbegun
  | store call =>
      cases call
      case begin =>
        cases reception with
        | refused failure => cases hbegun
        | answered =>
            obtain rfl := Option.some.inj hbegun
            exact ⟨rfl, rfl⟩
      all_goals cases hbegun

theorem lastTransaction_le_receive (service : Service) (call : ServiceCall)
    (reception : Reception) :
    service.market.lastTransaction ≤
      (service.receive call reception).2.market.lastTransaction := by
  rcases service.receive_cases call reception with hchange | ⟨transaction, -, -, heq⟩
  · exact hchange.lastTransaction_le
  · exact Int.le_of_eq (by rw [heq, Market.committed_eq])

theorem consistent_receive {service : Service} (hconsistent : service.market.Consistent)
    (call : ServiceCall) (reception : Reception) :
    (service.receive call reception).2.market.Consistent := by
  rcases service.receive_cases call reception with hchange | ⟨transaction, -, hready, heq⟩
  · exact hconsistent.change hchange
  · rw [heq]
    exact hconsistent.committed hready

end Service

namespace Settlement

variable {place : PlaceBid} {now : Instant} {phase : Settlement} {call : ServiceCall}
  {transaction : TransactionId}

/-- A call that places a bid names the transaction of its settlement, if any. -/
theorem Places.transaction?_eq (hplaces : Places place now phase call)
    (hnamed : call.transaction? = some transaction) : phase.transaction? = some transaction := by
  cases hplaces with
  | begin | forget => cases hnamed
  | mark | stage | commit => exact hnamed
  | rollback other hopen => exact hopen.trans hnamed

theorem Admits.cases (hadmits : Admits phase call) :
    phase = idle ∧ call.IsPlain ∨ ∃ place now, Places place now phase call := by
  cases hadmits with
  | plain hplain => exact .inl ⟨rfl, hplain⟩
  | places hplaces => exact .inr ⟨_, _, hplaces⟩

theorem commits_plain (hplain : call.IsPlain) (answer : call.Answer) :
    call.commits answer = false := by
  cases call with
  | cache call => rfl
  | store call =>
      cases call
      case commit => cases hplain.2
      all_goals rfl

theorem Admits.transaction?_eq (hadmits : Admits phase call)
    (hnamed : call.transaction? = some transaction) : phase.transaction? = some transaction := by
  cases hadmits with
  | places hplaces => exact hplaces.transaction?_eq hnamed
  | plain hplain =>
      cases call with
      | cache call => cases hnamed
      | store call => exact absurd hnamed (by rw [ServiceCall.transaction?, hplain.2]; exact nofun)

/-- A transaction that is open after a call was open before, or it was opened by the call. -/
theorem Places.begun_or_open (hplaces : Places place now phase call) (answer : call.Answer)
    (hopen : (phase.after call answer).transaction? = some transaction) :
    call.begun? answer = some transaction ∨ phase.transaction? = some transaction := by
  cases hplaces with
  | begin =>
      cases answer with
      | ok => exact .inl hopen
      | error => exact .inr hopen
  | mark | stage =>
      cases answer with
      | ok => exact .inr hopen
      | error => exact .inr hopen
  | commit =>
      cases answer with
      | ok => cases hopen
      | error => cases hopen
  | rollback | forget => cases hopen

theorem bid?_of_settled {bid : Bid} (hsettled : phase.settled? = some bid) :
    phase.bid? = some bid := by
  cases phase with
  | settled | announced => exact hsettled
  | idle | opened | marked | staged => cases hsettled

/-- Whether a settlement has come as far as its calls tell: whether a commit has succeeded, and
which bid was staged last. -/
def Reflects (phase : Settlement) (commits : Bool) (staged? : Option Bid) : Prop :=
  commits = phase.settled?.isSome ∧ ∀ bid, phase.bid? = some bid → staged? = some bid

theorem Stride.reflects {before after : Service} {answer : call.Answer} {commits : Bool}
    {staged? : Option Bid} (hstride : Stride place phase call before answer after)
    (hreflects : phase.Reflects commits staged?) :
    (phase.after call answer).Reflects (commits || call.commits answer)
      ((call.staged? answer).or staged?) := by
  obtain ⟨hcommits, hstaged⟩ := hreflects
  cases hstride with
  | hidden hentities hcache hcalls hbefore hafter hbid =>
      refine ⟨?_, fun bid hafterwards => ?_⟩
      · rw [hcommits, hcalls, hbefore, hafter]
        rfl
      · rw [hbid bid hafterwards, Option.some_or]
  | settles transaction bid hphase hready hservice hcalls hnone hafter =>
      rw [hcalls, hnone, hafter, Bool.or_true, Option.none_or]
      refine ⟨rfl, fun other hother => ?_⟩
      exact hstaged other (hphase ▸ hother)
  | forgets bid hphase hcall hmarket hcalls hnone hafter =>
      rw [hcalls, hnone, hafter, Bool.or_false, Option.none_or]
      refine ⟨?_, fun other hother => ?_⟩
      · rw [hcommits, hphase]
        rfl
      · exact hstaged other (hphase ▸ hother)

/-- After a call that is in order, what is staged again is what the settlement has staged, and its
calls tell how far it has come. -/
theorem Admits.step (hadmits : Admits phase call) {service : Service}
    (hfits : service.market.Fits phase) {commits : Bool} {staged? : Option Bid}
    (hreflects : phase.Reflects commits staged?) (reception : Reception) :
    let reply := service.receive call reception
    reply.2.market.Fits (phase.after call reply.1) ∧
      (phase.after call reply.1).Reflects (commits || call.commits reply.1)
        ((call.staged? reply.1).or staged?) := by
  intro reply
  rcases hadmits.cases with ⟨rfl, hplain⟩ | ⟨place, now, hplaces⟩
  · -- a plain call leaves the settlement where it is, with no bid of its own
    rw [after_plain hplain, commits_plain hplain, Bool.or_false]
    exact ⟨nofun, hreflects.1, nofun⟩
  · obtain ⟨hstride, hfits'⟩ := hplaces.stride hfits reception
    exact ⟨hfits', hstride.reflects hreflects⟩

/-- A transaction that is open after a call was open before, or it was opened by the call. -/
theorem Admits.begun_or_open (hadmits : Admits phase call) (answer : call.Answer)
    (hopen : (phase.after call answer).transaction? = some transaction) :
    call.begun? answer = some transaction ∨ phase.transaction? = some transaction := by
  rcases hadmits.cases with ⟨rfl, hplain⟩ | ⟨place, now, hplaces⟩
  · rw [after_plain hplain] at hopen
    exact .inr hopen
  · exact hplaces.begun_or_open answer hopen

end Settlement

/-! ## What holds between two calls -/

namespace Course

/-- How far its acts have brought a settlement. -/
def phase (course : Course α) : Settlement :=
  course.acts.foldl (fun phase act => phase.after act.call act.answer) .idle

/-- What the acts of a routine that keeps to the protocol tell about it. -/
structure Faithful (permits : Settlement → ServiceCall → Prop) (final : Settlement → α → Prop)
    (course : Course α) : Prop where
  promise : course.rest.Fulfils (Settlement.protocol permits) final course.phase
  held : ∀ transaction, course.phase.transaction? = some transaction →
    transaction ∈ course.handles
  reflects : course.phase.Reflects (course.acts.any Act.commits) course.staged?
  permitted : ∀ act ∈ course.acts, ∃ phase, permits phase act.call

/-- What holds of the course of a routine that keeps to the protocol, and of the market. -/
structure Sound (permits : Settlement → ServiceCall → Prop) (final : Settlement → α → Prop)
    (course : Course α) (market : Market) : Prop extends course.Faithful permits final where
  fits : market.Fits course.phase

variable {permits : Settlement → ServiceCall → Prop} {final : Settlement → α → Prop}
  {course : Course α} {market after : Market} {named : Option TransactionId}

theorem phase_append (acts : List Act) (act : Act) (rest : ServiceRoutine α) :
    (⟨acts ++ [act], rest⟩ : Course α).phase =
      (⟨acts, rest⟩ : Course α).phase.after act.call act.answer := by
  simp only [phase, List.foldl_append, List.foldl_cons, List.foldl_nil]

theorem handles_append (acts : List Act) (act : Act) (rest : ServiceRoutine α) :
    (⟨acts ++ [act], rest⟩ : Course α).handles =
      (⟨acts, rest⟩ : Course α).handles ++ act.begun?.toList := by
  simp only [handles, List.filterMap_append]
  cases hbegun : act.begun? <;> simp [hbegun]

theorem staged?_append (acts : List Act) (act : Act) (rest : ServiceRoutine α) :
    (⟨acts ++ [act], rest⟩ : Course α).staged? =
      act.staged?.or (⟨acts, rest⟩ : Course α).staged? := by
  simp only [staged?, List.filterMap_append, List.getLast?_append]
  cases hstaged : act.staged? <;> simp [hstaged]

namespace Faithful

theorem start {routine : ServiceRoutine α}
    (hfulfils : routine.Fulfils (Settlement.protocol permits) final .idle) :
    (Course.start routine).Faithful permits final where
  promise := hfulfils
  held := nofun
  reflects := ⟨rfl, nofun⟩
  permitted _ hmem := absurd hmem List.not_mem_nil

/-- A bid is settled when the settlement has come that far. -/
theorem settled?_eq (hfaithful : course.Faithful permits final) :
    course.settled? = course.phase.settled? := by
  obtain ⟨hcommits, hstaged⟩ := hfaithful.reflects
  unfold settled?
  rw [hcommits]
  cases hsettled : course.phase.settled? with
  | none => rfl
  | some bid => exact hstaged bid (Settlement.bid?_of_settled hsettled)

/-- A routine that has ended stands where it has to. -/
theorem concludes (hfaithful : course.Faithful permits final) {value : α}
    (hresult : course.result? = some value) : final course.phase value := by
  have hpromise := hfaithful.promise
  unfold result? at hresult
  split at hresult
  next ended hrest =>
    rw [hrest] at hpromise
    exact Option.some.inj hresult ▸ hpromise
  next => cases hresult

/-- The bid that a placement has staged is the one that was to be placed. -/
theorem records {place : PlaceBid} {now : Instant} {bid : Bid}
    (hfaithful : course.Faithful (Settlement.Places place now) final)
    (hstaged : course.staged? = some bid) : Settlement.Records place now bid := by
  obtain ⟨act, hmem, hact⟩ := List.mem_filterMap.mp (List.mem_of_getLast? hstaged)
  obtain ⟨phase, hplaces⟩ := hfaithful.permitted act hmem
  exact hplaces.records hact

/-- Whoever only makes plain calls settles nothing. -/
theorem settled?_of_idles (hfaithful : course.Faithful Settlement.Idles final) :
    course.settled? = none := by
  have hcommits : course.acts.any Act.commits = false := by
    rw [List.any_eq_false]
    intro act hmem hcommits
    obtain ⟨phase, -, hplain⟩ := hfaithful.permitted act hmem
    cases (Settlement.commits_plain hplain act.answer).symm.trans hcommits
  rw [settled?, hcommits]
  rfl

end Faithful

namespace Sound

theorem start {routine : ServiceRoutine α}
    (hfulfils : routine.Fulfils (Settlement.protocol permits) final .idle) (market : Market) :
    (Course.start routine).Sound permits final market where
  toFaithful := .start hfulfils
  fits := nofun

/-- What others do leaves a course as it was, unless they name its handles. -/
theorem change (hsound : course.Sound permits final market) (hhandled : market.Handled)
    (hchange : Market.Change market named after)
    (hnamed : ∀ transaction ∈ course.handles, named ≠ some transaction) :
    course.Sound permits final after :=
  { hsound with
    fits := hsound.fits.change hhandled hchange fun transaction hopen =>
      hnamed transaction (hsound.held transaction hopen) }

theorem committed_other (hsound : course.Sound permits final market) {other : TransactionId}
    (hother : other ∉ course.handles) : course.Sound permits final (market.committed other) :=
  { hsound with
    fits := hsound.fits.committed fun hopen => hother (hsound.held other hopen) }

/-- A call that names none of the handles of a course leaves it as it was. -/
theorem receive {service : Service} (hsound : course.Sound permits final service.market)
    (hhandled : service.market.Handled) {call : ServiceCall}
    (hnamed : ∀ transaction ∈ course.handles, call.transaction? ≠ some transaction)
    (reception : Reception) :
    course.Sound permits final (service.receive call reception).2.market := by
  rcases service.receive_cases call reception with hchange | ⟨transaction, rfl, -, heq⟩
  · exact hsound.change hhandled hchange hnamed
  · rw [heq]
    exact hsound.committed_other fun hmem => hnamed transaction hmem rfl

/-- Whoever keeps to the protocol does so with the next call as well. -/
theorem act (hpermits : ∀ phase call, permits phase call → Settlement.Admits phase call)
    {acts : List Act} {call : ServiceCall} {next : call.Answer → ServiceRoutine α}
    {service : Service}
    (hsound : (⟨acts, .ask call next⟩ : Course α).Sound permits final service.market)
    (reception : Reception) :
    let act : Act := ⟨call, reception, service⟩
    (⟨acts ++ [act], next act.answer⟩ : Course α).Sound permits final act.after.market := by
  intro act
  obtain ⟨⟨⟨hpermits', hpromise⟩, hheld, hreflects, hpermitted⟩, hfits⟩ := hsound
  have hphase := phase_append acts act (next act.answer)
  have hadmits := hpermits _ call hpermits'
  obtain ⟨hfits', hreflects'⟩ := hadmits.step hfits hreflects reception
  refine ⟨⟨hphase ▸ hpromise act.answer, ?_, ?_, ?_⟩, hphase ▸ hfits'⟩
  · -- what is open now was open before, or it was opened by this act
    intro transaction hopen
    rw [hphase] at hopen
    rw [handles_append]
    rcases hadmits.begun_or_open act.answer hopen with hbegun | hbefore
    · exact List.mem_append_right _ (Option.mem_toList.mpr hbegun)
    · exact List.mem_append_left _ (hheld transaction hbefore)
  · rw [hphase, staged?_append, List.any_append, List.any_cons, List.any_nil, Bool.or_false]
    exact hreflects'
  · intro other hmem
    rcases List.mem_append.mp hmem with hearlier | hlast
    · exact hpermitted other hearlier
    · obtain rfl := List.mem_singleton.mp hlast
      exact ⟨_, hpermits'⟩

end Sound

end Course

end FishMarket
