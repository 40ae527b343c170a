import FishMarket.Proofs.Market.Lifecycle
import FishMarket.Proofs.Service.Interleaved

/-! # Changes of an auction's status

Whoever changes the status of an auction looks at it, writes, and looks once more if the write has
found nothing that it may write to. Others may come in each time, so it is the write that decides:
the first look only tells whether to write at all, and the second one why nothing was written.
-/

namespace FishMarket

open Calendar
open ServiceRoutine (Leaves)

theorem AuctionStatus.parse_name (status : AuctionStatus) : parse status.name = .ok status := by
  rw [parse, ofName?_name]

/-- Only the names of statuses can be read. -/
theorem AuctionStatus.parse_of_unnamed {text : String}
    (hunnamed : ∀ status : AuctionStatus, status.name ≠ text) :
    parse text = .error (.validation (.unknownAuctionStatus text)) := by
  have hnone : ofName? text = none :=
    List.find?_eq_none.mpr fun status _ => by simpa using hunnamed status
  rw [parse, hnone]

/-! ## The acts -/

namespace Act

/-- The act of looking for an auction. -/
def looking (id : Int) (before : Service) : Act :=
  ⟨.store (.findAuction id), .answered, before⟩

/-- The act of writing the status of an auction. -/
def writing (id : Int) (status : AuctionStatus) (now : Instant) (before : Service) : Act :=
  ⟨.store (.updateAuctionStatus id status now), .answered, before⟩

variable {id : Int} {status : AuctionStatus} {now : Instant} {before : Service}

theorem after_looking : (looking id before).after = before := rfl

theorem after_writing_of_open {stored : Auction}
    (hstored : before.market.auctions.find? id = some stored)
    (hopen : stored.status.isTerminal = false) (status : AuctionStatus) (now : Instant) :
    (writing id status now before).after.market = { before.market with
      auctions := before.market.auctions.modify id fun _ =>
        { stored with status := status, updatedAt := now } } :=
  congrArg Prod.snd (Market.writeAuctionStatus_of_open hstored hopen status now)

theorem after_writing_of_not_open (hover : ¬ before.market.AuctionOpen id) :
    (writing id status now before).after = before := by
  have hanswer := Market.writeAuctionStatus_of_not_open hover status now
  simp only [writing, after, Service.receive, Service.answer, Market.answer, hanswer]

end Act

namespace Command

/-- What is left to do once a write has found nothing that it may write to. -/
def explainStatus (id : Int) : ServiceRoutine (Except Failure Auction) :=
  .ask (.store (.findAuction id)) fun
    | .error failure => .done (.error failure)
    | .ok none => .done (.error (.notFound (.auction id)))
    | .ok (some latest) => .done (.error (.conflict (.auctionEnded id latest.status)))

/-- What is left to do once the auction was found not to have ended. -/
def writeStatus (id : Int) (status : AuctionStatus) (now : Instant) :
    ServiceRoutine (Except Failure Auction) :=
  .ask (.store (.updateAuctionStatus id status now)) fun
    | .error failure => .done (.error failure)
    | .ok none => explainStatus id
    | .ok (some auction) => .done (.ok auction)

/-- The whole of a change, call by call. -/
theorem updateAuctionStatus_eq (id : Int) (status : AuctionStatus) (now : Instant) :
    (updateAuctionStatus id status.name now).run = .ask (.store (.findAuction id)) fun
      | .error failure => .done (.error failure)
      | .ok none => .done (.error (.notFound (.auction id)))
      | .ok (some current) =>
        if current.status.isTerminal then
          .done (.error (.conflict (.transition current.status status)))
        else writeStatus id status now := by
  unfold updateAuctionStatus
  rw [AuctionStatus.parse_name]
  refine congrArg (Routine.ask _) (funext fun reply => ?_)
  rcases reply with failure | _ | current
  · rfl
  · rfl
  · change (Action.ofExcept (current.status.checkTransition status) >>= _ : Action _).run = _
    unfold AuctionStatus.checkTransition
    cases hended : current.status.isTerminal with
    | true =>
        simp only [hended, if_true]
        rfl
    | false =>
        simp only [hended]
        refine congrArg (Routine.ask _) (funext fun reply => ?_)
        rcases reply with failure | _ | auction
        · rfl
        · refine congrArg (Routine.ask _) (funext fun reply => ?_)
          rcases reply with failure | _ | latest <;> rfl
        · rfl

/-- A text that is not the name of a status is turned down before anything is asked. -/
theorem updateAuctionStatus_of_unnamed {text : String}
    (hunnamed : ∀ status : AuctionStatus, status.name ≠ text) (id : Int) (now : Instant) :
    (updateAuctionStatus id text now).run =
      .done (.error (.validation (.unknownAuctionStatus text))) := by
  unfold updateAuctionStatus
  rw [AuctionStatus.parse_of_unnamed hunnamed]
  rfl

/-- A change of a status makes at most three calls. -/
theorem updateAuctionStatus_endsWithin (id : Int) (status : AuctionStatus) (now : Instant) :
    (updateAuctionStatus id status.name now).run.EndsWithin 3 := by
  rw [updateAuctionStatus_eq]
  refine ⟨by decide, fun first => ?_⟩
  rcases first with failure | _ | current
  · exact trivial
  · exact trivial
  · dsimp only
    split
    next => exact trivial
    next =>
      refine ⟨by decide, fun written => ?_⟩
      rcases written with failure | _ | auction
      · exact trivial
      · exact ⟨by decide, fun second => by rcases second with failure | _ | latest <;> exact trivial⟩
      · exact trivial

end Command

/-! ## How far a change has come -/

/-- How far a change of a status has come: its acts so far, and what it has come to once it has
ended. -/
inductive StatusChange (id : Int) (status : AuctionStatus) (now : Instant) :
    List Act → Option (Except Failure Auction) → Prop where
  | begun : StatusChange id status now [] none
  | missing {look : Service} (hnone : look.market.auctions.find? id = none) :
      StatusChange id status now [.looking id look] (some (.error (.notFound (.auction id))))
  | ended {look : Service} {current : Auction}
      (hcurrent : look.market.auctions.find? id = some current)
      (hended : current.status.isTerminal = true) :
      StatusChange id status now [.looking id look]
        (some (.error (.conflict (.transition current.status status))))
  | ready {look : Service} (hlook : look.market.AuctionOpen id) :
      StatusChange id status now [.looking id look] none
  | written {look write : Service} {stored : Auction} (hlook : look.market.AuctionOpen id)
      (hstored : write.market.auctions.find? id = some stored)
      (hopen : stored.status.isTerminal = false) :
      StatusChange id status now [.looking id look, .writing id status now write]
        (some (.ok { stored with status := status, updatedAt := now }))
  | overtaken {look write : Service} (hlook : look.market.AuctionOpen id)
      (hwrite : ¬ write.market.AuctionOpen id) :
      StatusChange id status now [.looking id look, .writing id status now write] none
  | vanished {look write again : Service} (hlook : look.market.AuctionOpen id)
      (hwrite : ¬ write.market.AuctionOpen id) (hnone : again.market.auctions.find? id = none) :
      StatusChange id status now
        [.looking id look, .writing id status now write, .looking id again]
        (some (.error (.notFound (.auction id))))
  | lost {look write again : Service} {latest : Auction} (hlook : look.market.AuctionOpen id)
      (hwrite : ¬ write.market.AuctionOpen id)
      (hlatest : again.market.auctions.find? id = some latest) :
      StatusChange id status now
        [.looking id look, .writing id status now write, .looking id again]
        (some (.error (.conflict (.auctionEnded id latest.status))))

namespace StatusChange

variable {id : Int} {status : AuctionStatus} {now : Instant} {look write : Service}
  {acts : List Act} {rest : ServiceRoutine (Except Failure Auction)}

theorem of_explain (hlook : look.market.AuctionOpen id) (hwrite : ¬ write.market.AuctionOpen id)
    (hleaves : (Command.explainStatus id).Leaves acts rest)
    (hanswered : ∀ act ∈ acts, act.reception = .answered) :
    StatusChange id status now (.looking id look :: .writing id status now write :: acts)
      (⟨acts, rest⟩ : Course _).result? := by
  rcases hleaves.of_store hanswered with ⟨rfl, rfl⟩ | ⟨again, later, rfl, hrest, -⟩
  · exact .overtaken hlook hwrite
  · cases hlatest : again.market.auctions.find? id with
    | none =>
        simp only [Market.answer, hlatest] at hrest
        obtain ⟨rfl, rfl⟩ := hrest.of_done
        exact .vanished hlook hwrite hlatest
    | some latest =>
        simp only [Market.answer, hlatest] at hrest
        obtain ⟨rfl, rfl⟩ := hrest.of_done
        exact .lost hlook hwrite hlatest

theorem of_write (hlook : look.market.AuctionOpen id)
    (hleaves : (Command.writeStatus id status now).Leaves acts rest)
    (hanswered : ∀ act ∈ acts, act.reception = .answered) :
    StatusChange id status now (.looking id look :: acts) (⟨acts, rest⟩ : Course _).result? := by
  rcases hleaves.of_store hanswered with ⟨rfl, rfl⟩ | ⟨write, later, rfl, hrest, hlater⟩
  · exact .ready hlook
  · by_cases hwrite : write.market.AuctionOpen id
    · obtain ⟨stored, hstored, hopen⟩ := hwrite
      have hanswer := Market.writeAuctionStatus_of_open hstored hopen status now
      simp only [Market.answer, hanswer] at hrest
      obtain ⟨rfl, rfl⟩ := hrest.of_done
      exact .written hlook hstored hopen
    · have hanswer := Market.writeAuctionStatus_of_not_open hwrite status now
      simp only [Market.answer, hanswer] at hrest
      exact of_explain hlook hwrite hrest hlater

/-- The acts of a change tell how far it has come. -/
theorem of_leaves
    (hleaves : Leaves (Command.updateAuctionStatus id status.name now).run acts rest)
    (hanswered : ∀ act ∈ acts, act.reception = .answered) :
    StatusChange id status now acts (⟨acts, rest⟩ : Course _).result? := by
  rw [Command.updateAuctionStatus_eq] at hleaves
  rcases hleaves.of_store hanswered with ⟨rfl, rfl⟩ | ⟨look, later, rfl, hrest, hlater⟩
  · exact .begun
  · cases hcurrent : look.market.auctions.find? id with
    | none =>
        simp only [Market.answer, hcurrent] at hrest
        obtain ⟨rfl, rfl⟩ := hrest.of_done
        exact .missing hcurrent
    | some current =>
        simp only [Market.answer, hcurrent] at hrest
        split at hrest
        next hended =>
          obtain ⟨rfl, rfl⟩ := hrest.of_done
          exact .ended hcurrent hended
        next hopen =>
          exact of_write ⟨current, hcurrent, (Bool.not_eq_true _).mp hopen⟩ hrest hlater

/-! What the stages have in common. -/

variable {outcome? : Option (Except Failure Auction)} {auction : Auction} {failure : Failure}

theorem calls (hchange : StatusChange id status now acts outcome?) :
    acts.map Act.call <+: [.store (.findAuction id), .store (.updateAuctionStatus id status now),
      .store (.findAuction id)] := by
  cases hchange with
  | begun => exact List.nil_prefix
  | missing | ended | ready => exact ⟨_, rfl⟩
  | written | overtaken => exact ⟨[_], rfl⟩
  | vanished | lost => exact ⟨[], rfl⟩

/-- A change ends well just when the auction has not ended at the first look nor at the write. -/
theorem succeeds_iff (hchange : StatusChange id status now acts outcome?) :
    (∃ auction, outcome? = some (.ok auction)) ↔
      ∃ look write, [.looking id look, .writing id status now write] <+: acts ∧
        look.market.AuctionOpen id ∧ write.market.AuctionOpen id := by
  constructor
  · rintro ⟨auction, rfl⟩
    cases hchange with
    | written hlook hstored hopen => exact ⟨_, _, List.prefix_rfl, hlook, _, hstored, hopen⟩
  · rintro ⟨look, write, ⟨later, rfl⟩, -, hwrite⟩
    cases hchange with
    | written => exact ⟨_, rfl⟩
    | overtaken _ hover | vanished _ hover | lost _ hover => exact absurd hwrite hover

theorem written_of_ok (hchange : StatusChange id status now acts (some (.ok auction))) :
    ∃ look write stored, acts = [.looking id look, .writing id status now write] ∧
      write.market.auctions.find? id = some stored ∧ stored.status.isTerminal = false ∧
      auction = { stored with status := status, updatedAt := now } := by
  cases hchange with
  | written hlook hstored hopen => exact ⟨_, _, _, rfl, hstored, hopen, rfl⟩

/-- A change that fails leaves everything as it is. -/
theorem idle_of_error (hchange : StatusChange id status now acts (some (.error failure))) :
    ∀ act ∈ acts, act.after = act.before := by
  cases hchange with
  | missing | ended => exact List.forall_mem_singleton.mpr Act.after_looking
  | vanished hlook hwrite hnone | lost hlook hwrite hlatest =>
      refine List.forall_mem_cons.mpr ⟨Act.after_looking, List.forall_mem_cons.mpr ⟨?_, ?_⟩⟩
      · exact Act.after_writing_of_not_open hwrite
      · exact List.forall_mem_singleton.mpr Act.after_looking

variable {interleaving : Interleaving (Except Failure Auction)} {again : Service}

/-- What a write has found to be over is over at the second look. -/
theorem over_at_second_look (htimely : interleaving.Timely)
    (hacts : interleaving.course.acts =
      [.looking id look, .writing id status now write, .looking id again])
    (hlook : look.market.AuctionOpen id) (hwrite : ¬ write.market.AuctionOpen id) :
    again.market.AuctionOver id := by
  obtain ⟨-, hfound, -, horder⟩ := htimely
  rw [hacts] at hfound horder
  obtain ⟨hfirst, hrest⟩ := List.pairwise_cons.mp horder
  obtain ⟨hsecond, -⟩ := List.pairwise_cons.mp hrest
  have hconsistent : look.market.Consistent := hfound _ List.mem_cons_self
  have hbefore : look.market.Precedes write.market := hfirst _ List.mem_cons_self
  have hafter : write.market.Precedes again.market := by
    rw [Act.after_writing_of_not_open hwrite] at hsecond
    exact hsecond _ List.mem_cons_self
  obtain ⟨current, hcurrent, -⟩ := hlook
  have hgiven := hbefore _ (Market.le_lastId_stable id) (hconsistent.auction_le_lastId hcurrent)
  exact hafter _ (Market.AuctionOver.stable id) ⟨hgiven, hwrite⟩

/-- A change that fails says what its last look has found. -/
theorem explained_of_error (htimely : interleaving.Timely)
    (hchange : StatusChange id status now interleaving.course.acts (some (.error failure))) :
    ∃ earlier read, interleaving.course.acts = earlier ++ [.looking id read] ∧
      (read.market.auctions.find? id = none ∧ failure = .notFound (.auction id) ∨
        ∃ ended, read.market.auctions.find? id = some ended ∧
          (ended.status = .completed ∨ ended.status = .cancelled) ∧
          failure = .conflict (if earlier = [] then .transition ended.status status
            else .auctionEnded id ended.status)) := by
  generalize hacts : interleaving.course.acts = acts at hchange
  cases hchange with
  | missing hnone => exact ⟨[], _, rfl, .inl ⟨hnone, rfl⟩⟩
  | ended hcurrent hended =>
      exact ⟨[], _, rfl, .inr ⟨_, hcurrent, AuctionStatus.ended_cases hended, rfl⟩⟩
  | vanished hlook hwrite hnone => exact ⟨[_, _], _, rfl, .inl ⟨hnone, rfl⟩⟩
  | lost hlook hwrite hlatest =>
      have hover := (over_at_second_look htimely hacts hlook hwrite).2
      have hended := Market.not_auctionOpen_iff.mp hover _ hlatest
      exact ⟨[_, _], _, rfl, .inr ⟨_, hlatest, AuctionStatus.ended_cases hended, rfl⟩⟩

/-- Where nobody comes in between there is no second look. -/
theorem length_le_two_of_unbroken (hunbroken : interleaving.Unbroken)
    (hchange : StatusChange id status now interleaving.course.acts outcome?) :
    interleaving.course.acts.length ≤ 2 := by
  have hchain := hunbroken.chain
  generalize interleaving.course.acts = acts at hchain hchange
  cases hchange with
  | begun | missing | ended | ready | written | overtaken => simp
  | vanished hlook hwrite | lost hlook hwrite =>
      obtain ⟨heq, -⟩ := List.isChain_cons_cons.mp hchain
      exact absurd (congrArg Service.market heq ▸ hlook) hwrite

end StatusChange

/-- The status of an auction is changed among others, from the start of the market on and up to any
moment; nobody refuses the calls. A text that is not the name of a status is turned down without a
call. Otherwise there is a look, a write and a second look at most, so with three turns of its own
the change has ended. It ends well just when the auction has not ended at the look and neither at the
write; then it returns the auction as it stands right after the write, and the write changes nothing
but the status and the time of the last change. If it fails, no call of it changes anything, and the
failure says what its last look has found: either no auction, or one that is completed or cancelled.
Where nobody comes in between there is no second look. -/
theorem Command.updateAuctionStatus_decided_by_write (id : Int) (now : Instant)
    (turns : List Turn) :
    (∀ text, (∀ status : AuctionStatus, status.name ≠ text) →
      let course := ((Interleaving.start (updateAuctionStatus id text now).run).play turns).course
      course.acts = [] ∧
        course.result? = some (.error (.validation (.unknownAuctionStatus text)))) ∧
    ∀ status : AuctionStatus,
      let course :=
        ((Interleaving.start (updateAuctionStatus id status.name now).run).play turns).course
      (∀ act ∈ course.acts, act.reception = .answered) →
      course.acts.map Act.call <+: [.store (.findAuction id),
        .store (.updateAuctionStatus id status now), .store (.findAuction id)] ∧
      (3 ≤ turns.countP Turn.isOwn → ∃ outcome, course.result? = some outcome) ∧
      ((∃ auction, course.result? = some (.ok auction)) ↔
        ∃ look write, [.looking id look, .writing id status now write] <+: course.acts ∧
          look.market.AuctionOpen id ∧ write.market.AuctionOpen id) ∧
      (∀ auction, course.result? = some (.ok auction) →
        ∃ look write stored, course.acts = [.looking id look, .writing id status now write] ∧
          write.market.auctions.find? id = some stored ∧
          auction = { stored with status := status, updatedAt := now } ∧
          (Act.looking id look).after = look ∧
          let after := (Act.writing id status now write).after.market
          after = { write.market with
            auctions := write.market.auctions.modify id fun _ => auction } ∧
          after.auctions.find? id = some auction) ∧
      (∀ failure, course.result? = some (.error failure) →
        (∀ act ∈ course.acts, act.after = act.before) ∧
        ∃ earlier read, course.acts = earlier ++ [.looking id read] ∧
          (read.market.auctions.find? id = none ∧ failure = .notFound (.auction id) ∨
            ∃ ended, read.market.auctions.find? id = some ended ∧
              (ended.status = .completed ∨ ended.status = .cancelled) ∧
              failure = .conflict (if earlier = [] then .transition ended.status status
                else .auctionEnded id ended.status))) ∧
      ∀ others count, turns = others ++ List.replicate count (.own .answered) →
        (∀ turn ∈ others, turn.isOwn = false) → course.acts.length ≤ 2 := by
  refine ⟨?_, ?_⟩
  · intro text hunnamed course
    have hleaves : Leaves (updateAuctionStatus id text now).run course.acts course.rest :=
      (Interleaving.start _).leaves_play (.all _) turns
    rw [updateAuctionStatus_of_unnamed hunnamed] at hleaves
    obtain ⟨hacts, hrest⟩ := hleaves.of_done
    exact ⟨hacts, by rw [Course.result?, hrest]⟩
  intro status course hanswered
  let start := Interleaving.start (updateAuctionStatus id status.name now).run
  have htimely : (start.play turns).Timely := (Interleaving.Timely.start _).play turns
  have hchange : StatusChange id status now course.acts course.result? :=
    .of_leaves (start.leaves_play (.all _) turns) hanswered
  refine ⟨hchange.calls, fun hturns => ?_, hchange.succeeds_iff, fun auction hresult => ?_,
    fun failure hresult => ?_, fun others count hturns hothers => ?_⟩
  · have hbound := start.endsWithin_play (updateAuctionStatus_endsWithin id status now) turns
    rw [Nat.sub_eq_zero_of_le hturns] at hbound
    exact Course.ended_of_endsWithin hbound
  · rw [hresult] at hchange
    obtain ⟨look, write, stored, hacts, hstored, hopen, rfl⟩ := hchange.written_of_ok
    have hafter := Act.after_writing_of_open hstored hopen status now
    refine ⟨look, write, stored, hacts, hstored, rfl, Act.after_looking, hafter, ?_⟩
    rw [hafter, Table.find?_modify, if_pos rfl, hstored]
    rfl
  · rw [hresult] at hchange
    exact ⟨hchange.idle_of_error, hchange.explained_of_error htimely⟩
  · subst hturns
    exact hchange.length_le_two_of_unbroken (.start _ hothers .answered count)

-- The auction is completed between the look and the write.
example (now : Instant) (date : Date) :
    ((Interleaving.start (Command.updateAuctionStatus 2 "in_progress" now).run).play [
      .other (.store (.createVenue ⟨"", "", ""⟩ now)) .answered,
      .other (.store (.createAuction ⟨1, date, none, none, none⟩ now)) .answered,
      .own .answered,
      .other (.store (.completeAuction 2 now)) .answered,
      .own .answered, .own .answered]).course.result? =
    some (.error (.conflict (.auctionEnded 2 .completed))) := by
  cbv

end FishMarket
