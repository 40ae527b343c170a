import FishMarket.Proofs.Floor.Log

/-! # Tasks by number

A task keeps its number for good, so it can be followed through a run: it waits while others are
served, and with each of its turns it makes the call that is due. What happens to the cache is done
by calls as well; besides, only time passes.
-/

namespace FishMarket

variable {Errand : Type} [Trade Errand]

namespace Floor

/-- The call that the task with a number makes when it is served. -/
def due? (floor : Floor Errand) (index : Nat) : Option ServiceCall :=
  floor.tasks[index]?.bind Task.pending?

variable {floor : Floor Errand} {move : Move Errand} {index : Nat}

theorem due?_eq_some_iff {call : ServiceCall} : floor.due? index = some call ↔
    ∃ errand acts next, floor.tasks[index]? = some ⟨errand, ⟨acts, .ask call next⟩, false⟩ := by
  constructor
  · intro hdue
    obtain ⟨⟨errand, ⟨acts, rest⟩, dropped⟩, hfound, hpending⟩ := Option.bind_eq_some_iff.mp hdue
    cases dropped with
    | true => cases hpending
    | false =>
        cases rest with
        | done outcome => cases hpending
        | ask asked next =>
            obtain rfl := Option.some.inj hpending
            exact ⟨errand, acts, next, hfound⟩
  · rintro ⟨errand, acts, next, hfound⟩
    rw [due?, hfound]
    rfl

theorem mem_pending_of_due {call : ServiceCall} (hdue : floor.due? index = some call) :
    call ∈ floor.tasks.filterMap Task.pending? := by
  obtain ⟨task, htask, hpending⟩ := Option.bind_eq_some_iff.mp hdue
  exact List.mem_filterMap.mpr ⟨task, List.mem_of_getElem? htask, hpending⟩

/-! ## One move -/

theorem getElem?_update (floor : Floor Errand) (index other : Nat)
    (change : Task Errand → Service → Task Errand × Service) :
    (floor.update index change).tasks[other]? =
      if index = other then floor.tasks[other]?.map fun task => (change task floor.service).1
      else floor.tasks[other]? := by
  unfold update
  split
  next task hfound =>
    rw [List.getElem?_set]
    split
    next hsame =>
      subst hsame
      rw [if_pos (List.getElem?_eq_some_iff.mp hfound).1, hfound]
      rfl
    next => rfl
  next hnone =>
    split
    next hsame =>
      rw [← hsame, hnone]
      rfl
    next => rfl

/-- What a move may have done to the task with a number. -/
theorem task_cases {task : Task Errand} (htask : (floor.take move).tasks[index]? = some task) :
    floor.tasks[index]? = some task ∨
    (∃ errand, move = .enter errand ∧ index = floor.tasks.length ∧ task = .start errand) ∨
    (∃ errand acts call next reception, move = .serve index reception ∧
      floor.tasks[index]? = some ⟨errand, ⟨acts, .ask call next⟩, false⟩ ∧
      let act : Act := ⟨call, reception, floor.service⟩
      task = ⟨errand, ⟨acts ++ [act], next act.answer⟩, false⟩) ∨
    ∃ former, move = .drop index ∧ floor.tasks[index]? = some former ∧
      task = { former with dropped := true } := by
  cases move with
  | refuseBid | wait => exact .inl htask
  | enter errand =>
      simp only [take, List.getElem?_append] at htask
      split at htask
      next => exact .inl htask
      next hnew =>
        have hindex := (List.getElem?_eq_some_iff.mp htask).1
        rw [List.length_singleton, Nat.lt_one_iff] at hindex
        rw [hindex] at htask
        refine .inr (.inl ⟨errand, rfl, ?_, (Option.some.inj htask).symm⟩)
        omega
  | serve other reception =>
      simp only [take, getElem?_update] at htask
      split at htask
      next hsame =>
        subst hsame
        obtain ⟨⟨errand, ⟨acts, rest⟩, dropped⟩, hfound, rfl⟩ := Option.map_eq_some_iff.mp htask
        cases dropped with
        | true => exact .inl hfound
        | false =>
            cases rest with
            | done outcome => exact .inl hfound
            | ask call next =>
                exact .inr (.inr (.inl ⟨errand, acts, call, next, reception, rfl, hfound, rfl⟩))
      next => exact .inl htask
  | drop other =>
      simp only [take, getElem?_update] at htask
      split at htask
      next hsame =>
        subst hsame
        obtain ⟨former, hfound, rfl⟩ := Option.map_eq_some_iff.mp htask
        unfold Task.drop
        split
        next => exact .inl hfound
        next => exact .inr (.inr (.inr ⟨former, rfl, hfound, rfl⟩))
      next => exact .inl htask

theorem length_take (floor : Floor Errand) (move : Move Errand) :
    floor.tasks.length ≤ (floor.take move).tasks.length := by
  have hupdate (index : Nat) (change : Task Errand → Service → Task Errand × Service) :
      (floor.update index change).tasks.length = floor.tasks.length := by
    unfold update
    split <;> simp
  cases move with
  | enter errand => simp [take]
  | refuseBid | wait => exact Nat.le_refl _
  | serve other reception => exact Nat.le_of_eq (hupdate other _).symm
  | drop other => exact Nat.le_of_eq (hupdate other _).symm

/-- What a move may do to the task with a number. -/
theorem task_take {former : Task Errand} (hformer : floor.tasks[index]? = some former)
    (move : Move Errand) :
    ∃ task, (floor.take move).tasks[index]? = some task ∧
      (task = former ∨
      (∃ errand acts call next reception, move = .serve index reception ∧
        former = ⟨errand, ⟨acts, .ask call next⟩, false⟩ ∧
        let act : Act := ⟨call, reception, floor.service⟩
        task = ⟨errand, ⟨acts ++ [act], next act.answer⟩, false⟩) ∨
      move = .drop index ∧ task = { former with dropped := true }) := by
  have hindex := (List.getElem?_eq_some_iff.mp hformer).1
  have htask := List.getElem?_eq_getElem (Nat.lt_of_lt_of_le hindex (length_take floor move))
  refine ⟨_, htask, ?_⟩
  rcases task_cases htask with hsame | ⟨errand, -, hnew, -⟩ |
    ⟨errand, acts, call, next, reception, hmove, hserved, heq⟩ | ⟨other, hmove, hdropped, heq⟩
  · exact .inl (Option.some.inj (hsame.symm.trans hformer))
  · exact absurd hnew (Nat.ne_of_lt hindex)
  · obtain rfl := Option.some.inj (hserved.symm.trans hformer)
    exact .inr (.inl ⟨errand, acts, call, next, reception, hmove, rfl, heq⟩)
  · obtain rfl := Option.some.inj (hdropped.symm.trans hformer)
    exact .inr (.inr ⟨hmove, heq⟩)

/-- A task that is served makes its next call. -/
theorem take_serve {errand : Errand} {acts : List Act} {call : ServiceCall}
    {next : call.Answer → ServiceRoutine (Trade.Outcome errand)}
    (hfound : floor.tasks[index]? = some ⟨errand, ⟨acts, .ask call next⟩, false⟩)
    (reception : Reception) :
    let act : Act := ⟨call, reception, floor.service⟩
    (floor.take (.serve index reception)).service = act.after ∧
      (floor.take (.serve index reception)).tasks[index]? =
        some ⟨errand, ⟨acts ++ [act], next act.answer⟩, false⟩ := by
  constructor
  · simp only [take, update, hfound]
    rfl
  · simp only [take]
    rw [getElem?_update, if_pos rfl, hfound]
    rfl

/-- A move that is an act of a task is the call that was due. -/
theorem act_cases {act : Act} (hact : floor.act? move = some act) :
    ∃ index errand acts next, move = .serve index act.reception ∧
      floor.tasks[index]? = some ⟨errand, ⟨acts, .ask act.call next⟩, false⟩ ∧
      act.before = floor.service ∧ (floor.take move).service = act.after ∧
      (floor.take move).tasks[index]? =
        some ⟨errand, ⟨acts ++ [act], next act.answer⟩, false⟩ := by
  cases move with
  | enter | drop | refuseBid | wait => cases hact
  | serve index reception =>
      obtain ⟨call, hdue, rfl⟩ := Option.map_eq_some_iff.mp hact
      obtain ⟨errand, acts, next, hfound⟩ := due?_eq_some_iff.mp hdue
      obtain ⟨hservice, htask⟩ := take_serve hfound reception
      exact ⟨index, errand, acts, next, rfl, hfound, rfl, hservice, htask⟩

/-- Without an act, nothing happens to the cache but that time passes. -/
theorem cache_of_idle (hidle : floor.act? move = none) :
    (floor.take move).service.cache = floor.service.cache ∧
      floor.service.moment ≤ (floor.take move).service.moment := by
  cases move with
  | enter | refuseBid => exact ⟨rfl, Nat.le_refl _⟩
  | wait elapsed => exact ⟨rfl, Nat.le_add_right _ _⟩
  | serve index reception =>
      simp only [act?, Option.map_eq_none_iff] at hidle
      simp only [take, update]
      split
      next task hfound =>
        rw [hfound, Option.bind_some] at hidle
        obtain ⟨errand, ⟨acts, rest⟩, dropped⟩ := task
        cases dropped with
        | true => exact ⟨rfl, Nat.le_refl _⟩
        | false =>
            cases rest with
            | done outcome => exact ⟨rfl, Nat.le_refl _⟩
            | ask call next => cases hidle
      next => exact ⟨rfl, Nat.le_refl _⟩
  | drop index =>
      simp only [take, update]
      split
      next task _ =>
        simp only [Task.drop]
        split <;> exact ⟨rfl, Nat.le_refl _⟩
      next => exact ⟨rfl, Nat.le_refl _⟩

/-- Whatever the floor was like, all tasks keep to a contract that every routine fulfils. -/
theorem keeps_take {Phase : Type} {contract : Contract ServiceCall ServiceCall.Answer Phase}
    {start : Phase}
    (hfulfils : ∀ errand : Errand, (Trade.routine errand).Fulfils contract (fun _ _ => True) start)
    (hkeeps : ∀ task ∈ floor.tasks, task.course.Keeps contract (fun _ _ => True) start)
    (move : Move Errand) :
    ∀ task ∈ (floor.take move).tasks, task.course.Keeps contract (fun _ _ => True) start := by
  intro task hmem
  obtain ⟨index, hindex⟩ := List.mem_iff_getElem?.mp hmem
  rcases task_cases hindex with hsame | ⟨errand, -, -, rfl⟩ |
    ⟨errand, acts, call, next, reception, -, hserved, rfl⟩ | ⟨former, -, hformer, rfl⟩
  · exact hkeeps task (List.mem_of_getElem? hsame)
  · exact hfulfils errand
  · exact (hkeeps _ (List.mem_of_getElem? hserved)).act reception _
  · exact hkeeps former (List.mem_of_getElem? hformer)

/-! ## Runs -/

/-- What holds of a task, and stays so with every call of the task and when it is dropped, holds of
the task under its number at all later times. -/
theorem follow {motive : List (Move Errand) → Task Errand → Prop} {task : Task Errand}
    (htask : floor.tasks[index]? = some task) (hstart : motive [] task)
    (hstays : ∀ {moves task} move, motive moves task → motive (moves ++ [move]) task)
    (hacts : ∀ {moves errand acts call next} reception,
      motive moves ⟨errand, ⟨acts, .ask call next⟩, false⟩ →
      let act : Act := ⟨call, reception, (floor.play moves).service⟩
      motive (moves ++ [.serve index reception])
        ⟨errand, ⟨acts ++ [act], next act.answer⟩, false⟩)
    (hdrops : ∀ {moves task}, motive moves task →
      motive (moves ++ [.drop index]) { task with dropped := true })
    (moves : List (Move Errand)) :
    ∃ task, (floor.play moves).tasks[index]? = some task ∧ motive moves task := by
  induction moves using List.reverseRecOn with
  | nil => exact ⟨task, htask, hstart⟩
  | append_singleton moves move ih =>
      obtain ⟨former, hformer, hmotive⟩ := ih
      rw [play_singleton]
      obtain ⟨task, htask, hcases⟩ := task_take hformer move
      refine ⟨task, htask, ?_⟩
      rcases hcases with rfl | ⟨errand, acts, call, next, reception, rfl, rfl, rfl⟩ | ⟨rfl, rfl⟩
      · exact hstays move hmotive
      · exact hacts reception hmotive
      · exact hdrops hmotive

/-- A task that has ended stays as it is, unless it is dropped for form's sake. -/
theorem ended_play {errand : Errand} {acts : List Act} {outcome : Trade.Outcome errand}
    {dropped : Bool}
    (htask : floor.tasks[index]? = some ⟨errand, ⟨acts, .done outcome⟩, dropped⟩)
    (moves : List (Move Errand)) : ∃ dropped,
      (floor.play moves).tasks[index]? = some ⟨errand, ⟨acts, .done outcome⟩, dropped⟩ := by
  have hfollow : ∃ task, (floor.play moves).tasks[index]? = some task ∧
      ∃ dropped, task = ⟨errand, ⟨acts, .done outcome⟩, dropped⟩ := by
    refine follow
      (motive := fun _ task => ∃ dropped, task = ⟨errand, ⟨acts, .done outcome⟩, dropped⟩)
      htask ⟨dropped, rfl⟩ ?_ ?_ ?_ moves
    · exact fun _ hended => hended
    · rintro before other acts' call next reception ⟨dropped, heq⟩
      cases heq
    · rintro before task ⟨dropped, rfl⟩
      exact ⟨true, rfl⟩
  obtain ⟨task, htask', dropped', rfl⟩ := hfollow
  exact ⟨dropped', htask'⟩

/-- Whoever comes in gets the next number. -/
theorem getElem?_enter (floor : Floor Errand) (errand : Errand) :
    (floor.take (.enter errand)).tasks[floor.tasks.length]? = some (.start errand) :=
  List.getElem?_concat_length

end Floor

end FishMarket
