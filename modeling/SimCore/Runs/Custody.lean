import SimCore.Runs.Ownership

/-!
# Operations keep ownership

Every operation that a thread may carry out keeps what holds of all runs, and does nothing that the
other threads do not count on. Most operations leave the books of all runs as they are. The others
change the books of one run, whose owner is the thread itself, or on whose books no other thread
relies in that respect.

## Main results

* `Op.custody`: an operation keeps the invariant of every run and the reliance of every other thread
-/

namespace SimCore.Runs

open Concurrent RunStore SameRun RelyOn Executor
open Function (update_of_ne update_self)

/-- What an operation of a thread has to keep. -/
structure Custody (timely : Prop) (i : Nat) (e e' : Executor) : Prop where
  inv : ∀ id, RunInv timely e' id
  rely : ∀ j, j ≠ i → RelyAll j e e'

section

variable {timely : Prop} {env : Server} {i : Nat} {e e' : Executor} {a : Answer}

/-- An operation that leaves the books of all runs and the contexts as they are. -/
theorem custody_of_sameRun (hinv : ∀ id, RunInv timely e id) (h : ∀ id, SameRun e e' id)
    (hco : e'.contextRun = e.contextRun) (hca : e'.cancelled = e.cancelled) :
    Custody timely i e e' where
  inv id := (h id).inv (hinv id) fun _ t _ hr hc => .inl ⟨hco ▸ hr, hca ▸ hc⟩
  rely j _ := ⟨fun id => (h id).rely j, by rw [hco]⟩

theorem custody_store (op : Op) (hinv : ∀ id, RunInv timely e id)
    (hop : ∀ runID input parent, op ≠ .create runID input parent)
    (h : (op.run env a e).2 = e.withStore (op.run env a e).2.store) :
    Custody timely i e (op.run env a e).2 := by
  have hf := fun id => (op.fate env a e id).onward hop
  generalize (op.run env a e).2.store = store at h hf
  rw [h]
  exact custody_of_sameRun hinv (fun id => { refl e id with
    record := by simpa [h, withStore] using hf id
    entries := .same rfl }) rfl rfl

/-- An operation that changes the books of one run. -/
theorem custody_one (runID : RunId) (hinv : ∀ id, RunInv timely e id)
    (hs : ∀ id, id ≠ runID → SameRun e e' id)
    (hca : ∀ id, id ≠ runID → ∀ t, e'.contextRun t = some id → e'.cancelled t = true →
      e.contextRun t = some id ∧ e.cancelled t = true)
    (hco : ∀ j, j ≠ i → e'.contextRun j = e.contextRun j)
    (hrun : RunInv timely e' runID) (hre : ∀ j, j ≠ i → RelyOn j e e' runID) :
    Custody timely i e e' where
  inv id := by
    by_cases hid : id = runID
    · exact hid ▸ hrun
    · exact (hs id hid).inv (hinv id) fun _ t _ hr hc => .inl (hca id hid t hr hc)
  rely j hj := by
    refine ⟨fun id => ?_, hco j hj⟩
    by_cases hid : id = runID
    · exact hid ▸ hre j hj
    · exact (hs id hid).rely j

/-- An operation that changes the books of one run and no context. -/
theorem custody_books (runID : RunId) (hinv : ∀ id, RunInv timely e id)
    (hco : e'.contextRun = e.contextRun) (hca : e'.cancelled = e.cancelled)
    (hs : ∀ id, id ≠ runID → SameRun e e' id) (hrun : RunInv timely e' runID)
    (hre : ∀ j, j ≠ i → RelyOn j e e' runID) : Custody timely i e e' :=
  custody_one runID hinv hs (fun _ _ _ hr hc => ⟨hco ▸ hr, hca ▸ hc⟩)
    (fun _ _ => by rw [hco]) hrun hre

end

section Operations

variable {timely : Prop} {env : Server} {i : Nat} {e : Executor} {a : Answer} {runID : RunId}
  {ending : Ending} {errMsg : String} (hinv : ∀ id, RunInv timely e id)

theorem mem_owners_of_ne {id : RunId} (h : RunInv timely e id) (hi : i ∈ e.owners id) {j : Nat}
    (hj : j ≠ i) : j ∉ e.owners id := by
  rw [(h.single i hi).1]
  simpa using hj

/-- After `SetStatus` the run has ended or is not stored. -/
theorem ended_setStatus {now : Int} {rec : RunRecord}
    (h : (e.store.setStatus runID ending.status errMsg now).2.get runID = some rec) :
    rec.terminal = true := by
  rw [get_setStatus, if_pos rfl] at h
  obtain ⟨_, -, rfl⟩ := Option.map_eq_some_iff.1 h
  exact terminal_ended _ _ _ _ _

theorem exists_ended (env : Server) (e : Executor) (a : Answer) (runID : RunId) (ending : Ending)
    (errMsg : String) : ∃ store, (e.store.setStatus runID ending.status errMsg a.now).2 = store ∧
      (∀ id, Onward (e.store.get id) (store.get id)) ∧
      ∀ rec, store.get runID = some rec → rec.terminal = true :=
  ⟨_, rfl, fun id => ((Op.setStatus (.stop 0) runID ending errMsg).fate env a e id).onward
    (by simp), fun _ => ended_setStatus⟩

include hinv

theorem custody_create {input : Option RunInput} {parent : Option RunId}
    (hok : startsOnce e i (.create runID input parent) a = true)
    (hti : timely → e.timers (createdId runID a) = false) :
    Custody timely i e ((Op.create runID input parent).run env a e).2 := by
  simp only [Op.run]
  split
  · rename_i rec _ h
    have hid : rec.id = createdId runID a := create_id h
    obtain ⟨_, rfl, _, -⟩ := create_ok h
    -- nobody owns an older run with the id, so that nobody relies on its books
    have ho : e.owners rec.id = [] := by simpa [startsOnce, hid] using hok
    rw [← hid] at hti
    have hf : ∀ {t} {P : Prop}, t ∈ e.owners rec.id → P := fun h => by simp [ho] at h
    refine custody_books rec.id hinv rfl rfl (fun id hne => ?_) ?_ fun j _ => ?_
    · refine { refl e id with
        record := ?_
        launched := update_of_ne hne _ _
        entries := .same rfl }
      simp only [RunStore.get, KeyMap.get_set_of_ne hne]
      exact .refl _
    · exact { hinv rec.id with
        begun := fun hb => absurd hb (by simpa [Begun, ho] using hti)
        free := (hinv rec.id).free_of_same rfl (.same rfl)
        single := (hinv rec.id).single_of_same rfl (.same rfl)
        cancelled := fun _ _ ht => hf ht
        finished := fun _ hl => by simp at hl }
    · exact { refl j e rec.id with
        settled := fun h => hf h
        dismissed := fun _ _ _ h => hf h
        carries := fun _ h => hf h
        entries := fun _ => .same rfl }
  · exact custody_of_sameRun hinv (.refl e) rfl rfl

/-- A guarded start makes the thread the owner of a run that has none. -/
theorem custody_setStatusRunning (hco : e.contextRun i = none)
    (hok : startsOnce e i (.setStatusRunning runID i) a = true) :
    Custody timely i e ((Op.setStatusRunning runID i).run env a e).2 := by
  have ho := ((Op.setStatusRunning runID i).fate env a e runID).onward (by simp)
  simp only [Op.run] at ho ⊢
  obtain ⟨_, h⟩ | ⟨rec, hrec, hru, h⟩ | ⟨rec, started, hrec, hru, hte, h⟩ :=
    setStatusRunning_cases e.store runID a.now <;> rw [h] at ho ⊢
  · exact custody_of_sameRun hinv (.refl e) rfl rfl
  · simp [startsOnce, hrec, hru] at hok
  · have hr := hinv runID
    have how := (hr.not_begun hrec hru hte).1
    simp only [Except.toBool, if_true] at ho ⊢
    obtain ⟨store, hst⟩ : ∃ store, store = e.store.update runID fun _ =>
      { rec.withStatus .running with startedAtUnixMs := started } := ⟨_, rfl⟩
    have hg : ∀ rec', store.get runID = some rec' → rec'.status = .running := by
      intro rec' h
      rw [hst, get_update, if_pos rfl, hrec] at h
      cases h
      rfl
    have hot : ∀ id, id ≠ runID → store.get id = e.store.get id := fun id hne => by
      rw [hst, get_update, if_neg hne]
    rw [← hst] at ho ⊢
    have hse : ∀ {owners lease}, Settled e runID →
        Settled { e with store := store, owners := owners, lease := lease } runID := by
      rintro owners lease (hs | hs)
      · exact absurd (hs rec hrec) (by simp [hte])
      · exact .inr hs
    -- the new owner has no context yet
    have hno : ∀ {P : Prop} (t), e.contextRun t = some runID →
        t ∈ Function.update e.owners runID (i :: e.owners runID) runID → P := by
      intro P t hrun ht
      simp only [update_self, how, List.mem_singleton] at ht
      rw [ht, hco] at hrun
      cases hrun
    refine custody_books runID hinv rfl rfl (fun id hne => ?_) ?_ fun j hj => ?_
    · exact { refl e id with
        record := by simpa only [hot id hne] using .refl _
        owners := update_of_ne hne _ _
        lease := update_of_ne hne _ _
        entries := .same rfl }
    · refine { hr with
        begun := fun _ rec' h => .inl (hg rec' h)
        free := fun h => by simp at h
        single := fun t ht => ?_
        live := .inl ?_
        cancelled := fun _ t ht hrun => hno t hrun ht
        finished := fun hti hl => (hr.finished hti hl).imp_right hse
        reason := fun h => by simp at h }
      · simp only [update_self, how, List.mem_singleton] at ht ⊢
        exact ⟨by rw [ht], SameEntries.registered (e := e) (.same rfl) ((hr.free how).registered t)⟩
      · obtain h | h := hr.live
        · exact h
        · exact h.trans how
    · exact { refl j e runID with
        settled := fun _ => hse
        dismissed := fun t hrun _ ht => hno t hrun ht
        carries := fun input _ => ho.carries input
        owner := by simp [how, hj]
        entries := fun _ => .same rfl
        lease := fun h => by simp [how] at h }

theorem custody_setStatus_stop :
    Custody timely i e ((Op.setStatus (.stop i) runID ending errMsg).run env a e).2 := by
  obtain ⟨store, hs, ho, he⟩ := exists_ended env e a runID ending errMsg
  have hr := hinv runID
  simp only [Op.run, withStore, wrote, hs]
  refine custody_books runID hinv rfl rfl (fun id hne => ?_) ?_ fun j hj => ?_
  · exact { refl e id with
      record := ho id
      stopping := update_of_ne hne _ _
      entries := .same rfl }
  · exact { hr with
      begun := fun _ rec h => .inr (he rec h)
      free := hr.free_of_same rfl (.same rfl)
      single := hr.single_of_same rfl (.same rfl)
      cancelled := fun _ _ _ _ _ => .inl (.inl he)
      finished := fun _ _ => .inr (.inl he) }
  · exact { refl j e runID with
      settled := fun _ _ => .inl he
      dismissed := fun _ _ _ _ => .inl (.inl he)
      carries := fun input _ => (ho runID).carries input
      stopping := by simpa only [update_self] using List.mem_erase_of_ne hj
      entries := fun _ => .same rfl }

/-- A start that is rejected sets the status and gives the run up. -/
theorem custody_setStatus_start (hi : i ∈ e.owners runID)
    (hf : Unregistered e runID) (hl : e.live runID = []) :
    Custody timely i e ((Op.setStatus (.start i) runID ending errMsg).run env a e).2 := by
  obtain ⟨store, hs, ho, he⟩ := exists_ended env e a runID ending errMsg
  have hr := hinv runID
  have how : (e.owners runID).erase i = [] := by rw [(hr.single i hi).1]; simp
  simp only [Op.run, withStore, wrote, release, hs]
  refine custody_books runID hinv rfl rfl (fun id hne => ?_) ?_ fun j hj => ?_
  · exact { refl e id with
      record := ho id
      owners := update_of_ne hne _ _
      live := update_of_ne hne _ _
      entries := .same rfl }
  · refine { hr with
      begun := fun _ rec h => .inr (he rec h)
      free := fun _ => SameEntries.unregistered (e := e) (.same rfl) hf
      single := fun t ht => ?_
      live := .inl ?_
      cancelled := fun _ _ _ _ _ => .inl (.inl he)
      finished := fun _ _ => .inr (.inl he) }
    · simp only [update_self, how] at ht
      cases ht
    · simp [hl]
  · exact { refl j e runID with
      settled := fun _ _ => .inl he
      dismissed := fun _ _ _ _ => .inl (.inl he)
      carries := fun input _ => (ho runID).carries input
      owner := by simpa only [update_self] using List.mem_erase_of_ne hj
      entries := fun _ => .same rfl
      live := fun h => absurd h (mem_owners_of_ne hr hi hj) }

theorem custody_registerCancel (hi : i ∈ e.owners runID)
    (hf : Unregistered e runID) (hco : e.contextRun i = none) :
    Custody timely i e ((Op.registerCancel runID i).run env a e).2 := by
  have hr := hinv runID
  have hk : ∀ t id, e.contextRun t = some id →
      Function.update e.contextRun i (some runID) t = some id := by
    intro t id ht
    rw [update_of_ne, ht]
    rintro rfl
    rw [hco] at ht
    cases ht
  simp only [Op.run, hf.cancels]
  refine custody_one runID hinv (fun id hne => ?_) (fun id hne t hrun hc => ?_)
    (fun j hj => update_of_ne hj _ _) ?_ fun j hj => ?_
  · exact { refl e id with
      entries := ⟨update_of_ne hne _ _, rfl, rfl, rfl, rfl⟩
      contextRun := fun t ht => hk t id ht }
  · have hti : t ≠ i := by
      rintro rfl
      simp only [update_self, Option.some.injEq] at hrun
      exact hne hrun.symm
    simp only [update_of_ne hti] at hrun hc
    exact ⟨hrun, hc⟩
  · refine { hr with
      free := fun h => absurd (h ▸ hi : i ∈ []) (by simp)
      single := fun t ht => ?_
      context := fun t ht => ?_
      cancelled := fun _ t ht _ hc => ?_ }
    · obtain rfl : t = i := by simpa [(hr.single i hi).1] using ht
      refine ⟨(hr.single t hi).1, ⟨fun t' h => ?_, (hr.single t hi).2.2, (hr.single t hi).2.3,
        (hr.single t hi).2.4, (hr.single t hi).2.5⟩⟩
      simp only [update_self, Option.some.injEq] at h
      exact h.symm
    · simp only [update_self, Option.some.injEq] at ht
      simp [← ht]
    · obtain rfl : t = i := by simpa [(hr.single i hi).1] using ht
      simp at hc
  · exact { refl j e runID with
      contextRun := fun t ht => hk t runID ht
      entries := fun h => absurd h (mem_owners_of_ne hr hi hj) }

theorem custody_spawn (hi : i ∈ e.owners runID)
    (hl : e.live runID = []) : Custody timely i e ((Op.spawn runID i).run env a e).2 := by
  have hr := hinv runID
  refine custody_books runID hinv rfl rfl (fun id hne => ?_) ?_ fun j hj => ?_
  · exact { refl e id with
      live := update_of_ne hne _ _
      launched := update_of_ne hne _ _
      entries := .same rfl }
  · exact { hr with
      free := hr.free_of_same rfl (.same rfl)
      single := hr.single_of_same rfl (.same rfl)
      live := .inr (by simp [Op.run, hl, (hr.single i hi).1])
      finished := fun _ _ => .inl (by simp [Op.run]) }
  · exact { refl j e runID with
      entries := fun _ => .same rfl
      live := fun h => absurd h (mem_owners_of_ne hr hi hj) }

/-- A stop looks up the cancel function. From then on the run is settled. -/
theorem custody_lookupCancel : Custody timely i e ((Op.lookupCancel runID i).run env a e).2 := by
  have hr := hinv runID
  have hs : Function.update e.stopping runID (i :: e.stopping runID) runID ≠ [] := by simp
  refine custody_books runID hinv rfl rfl (fun id hne => ?_) ?_ fun j hj => ?_
  · exact { refl e id with
      stopping := update_of_ne hne _ _
      entries := .same rfl }
  · exact { hr with
      free := hr.free_of_same rfl (.same rfl)
      single := hr.single_of_same rfl (.same rfl)
      cancelled := fun _ _ _ _ _ => .inl (.inr hs)
      finished := fun _ _ => .inr (.inr hs) }
  · exact { refl j e runID with
      settled := fun _ _ => .inr hs
      dismissed := fun _ _ _ _ => .inl (.inr hs)
      stopping := by simp [Op.run, hj]
      entries := fun _ => .same rfl }

theorem custody_cancel {ctx : Nat}
    (hp : timely → ∃ id, e.contextRun ctx = some id ∧ (ctx ∈ e.owners id → Dismissed e id)) :
    Custody timely i e ((Op.cancel ctx).run env a e).2 := by
  have hs : ∀ id, SameRun e ((Op.cancel ctx).run env a e).2 id := fun id =>
    { refl e id with entries := .same rfl }
  refine ⟨fun id => (hs id).inv (hinv id) fun hti t ho hr hc => ?_,
    fun j _ => ⟨fun id => (hs id).rely j, rfl⟩⟩
  by_cases ht : t = ctx
  · subst ht
    obtain ⟨_, hr', hd⟩ := hp hti
    have hr : e.contextRun t = some id := hr
    rw [hr] at hr'
    cases hr'
    exact .inr (hd ho)
  · simp only [Op.run, update_of_ne ht] at hr hc
    exact .inl ⟨hr, hc⟩

theorem custody_registerRun (hi : i ∈ e.owners runID) :
    Custody timely i e ((Op.registerRun runID i).run env a e).2 := by
  have hr := hinv runID
  refine custody_books runID hinv rfl rfl (fun id hne => ?_) ?_ fun j hj => ?_
  · exact { refl e id with
      entries := ⟨rfl, update_of_ne hne _ _, update_of_ne hne _ _,
        update_of_ne hne _ _, update_of_ne hne _ _⟩ }
  · refine { hr with
      free := fun h => absurd (h ▸ hi : i ∈ []) (by simp)
      single := fun t ht => ?_ }
    have ht : t ∈ e.owners runID := ht
    obtain rfl : t = i := by simpa [(hr.single i hi).1] using ht
    refine ⟨(hr.single t hi).1, (hr.single t hi).2.1, ?_, ?_, ?_, ?_⟩ <;>
      simp [Op.run, eq_comm]
  · exact { refl j e runID with
      entries := fun h => absurd h (mem_owners_of_ne hr hi hj) }

theorem custody_startTimers (hi : i ∈ e.owners runID) :
    Custody timely i e ((Op.startTimers runID).run env a e).2 := by
  have hr := hinv runID
  refine custody_books runID hinv rfl rfl (fun id hne => ?_) ?_ fun j hj => ?_
  · exact { refl e id with
      timers := update_of_ne hne _ _
      entries := .same rfl }
  · exact { hr with
      begun := fun _ => hr.begun (.inl (List.ne_nil_of_mem hi))
      free := hr.free_of_same rfl (.same rfl)
      single := hr.single_of_same rfl (.same rfl) }
  · exact { refl j e runID with
      entries := fun _ => .same rfl
      timers := fun h => absurd h (mem_owners_of_ne hr hi hj) }

theorem custody_signalLeaseEnd {reason : OnlineCompletion} :
    Custody timely i e ((Op.signalLeaseEnd runID reason).run env a e).2 := by
  have hr := hinv runID
  simp only [Op.run]
  split
  · rename_i hti
    have hl : LeaseKept (e.timers runID) (e.lease runID)
        (if e.lease runID = .open then .signalled else e.lease runID) := by
      split_ifs with h
      · exact .inr ⟨h, rfl, hti⟩
      · exact .inl rfl
    generalize (if e.lease runID = .open then Lease.signalled else e.lease runID) = lease at hl ⊢
    have hd : Dismissed e runID → Settled e runID ∨ lease = .signalled ∨ lease = .closed := by
      rintro (h | h)
      · exact .inl h
      · obtain rfl | ⟨-, rfl, -⟩ := hl
        · exact .inr h
        · exact .inr (.inl rfl)
    refine custody_books runID hinv rfl rfl (fun id hne => ?_) ?_ fun j hj => ?_
    · exact { refl e id with
        lease := update_of_ne hne _ _
        reason := update_of_ne hne _ _
        entries := .same rfl }
    · exact { hr with
        free := hr.free_of_same rfl (.same rfl)
        single := hr.single_of_same rfl (.same rfl)
        cancelled := fun htimely t ht hrun hc => (hd (hr.cancelled htimely t ht hrun hc)).imp
          (fun h => h) fun h => by simpa using h
        reason := fun _ => by simp }
    · exact { refl j e runID with
        dismissed := fun _ _ h ht => (hd (h ht)).imp (fun h => h) fun h => by simpa using h
        entries := fun _ => .same rfl
        lease := fun _ => by simpa using hl }
  · exact custody_of_sameRun hinv (.refl e) rfl rfl

theorem custody_takeReason (hi : i ∈ e.owners runID)
    (ho : e.lease runID = .open ∨ e.lease runID = .signalled) :
    Custody timely i e ((Op.takeOnlineCompletionReason runID).run env a e).2 := by
  have hr := hinv runID
  obtain ⟨lease, hl⟩ : ∃ lease, lease =
    if e.onlineCompletionReason runID = none then Lease.leaving else .closed := ⟨_, rfl⟩
  -- a signalled end has a reason, so that the lease is closed then
  have hd : Dismissed e runID → Settled e runID ∨ lease = .signalled ∨ lease = .closed := by
    rintro (h | h | h)
    · exact .inl h
    · exact .inr (.inr (by rw [hl, if_neg (hr.reason h)]))
    · obtain h' | h' := ho <;> rw [h'] at h <;> cases h
  have hn : lease ≠ .signalled := by
    rw [hl]
    split <;> simp
  simp only [Op.run, ← hl]
  refine custody_books runID hinv rfl rfl (fun id hne => ?_) ?_ fun j hj => ?_
  · exact { refl e id with
      lease := update_of_ne hne _ _
      reason := update_of_ne hne _ _
      entries := .same rfl }
  · refine { hr with
      free := hr.free_of_same rfl (.same rfl)
      single := hr.single_of_same rfl (.same rfl)
      cancelled := fun hti t ht hrun hc => (hd (hr.cancelled hti t ht hrun hc)).imp
        (fun h => h) fun h => by simpa using h
      reason := fun h => ?_ }
    simp only [update_self] at h
    exact absurd h hn
  · exact { refl j e runID with
      dismissed := fun _ _ h ht => (hd (h ht)).imp (fun h => h) fun h => by simpa using h
      entries := fun _ => .same rfl
      lease := fun h => absurd h (mem_owners_of_ne hr hi hj) }

/-- The owner of a run that is settled removes what is registered and gives the run up. -/
theorem custody_cleanup (hi : i ∈ e.owners runID) (hs : timely → Settled e runID) :
    Custody timely i e ((Op.cleanup runID i).run env a e).2 := by
  have hr := hinv runID
  have ho : (e.owners runID).erase i = [] := by rw [(hr.single i hi).1]; simp
  have hl : (e.live runID).erase i = [] := by
    obtain h | h := hr.live
    · rw [h]; rfl
    · rw [h, ho]
  simp only [Op.run, release, removeRun]
  refine custody_one runID hinv (fun id hne => ?_) (fun id hne t hrun hc => ⟨hrun, ?_⟩)
    (fun _ _ => rfl) ?_ fun j hj => ?_
  · exact { refl e id with
      owners := update_of_ne hne _ _
      live := update_of_ne hne _ _
      lease := update_of_ne hne _ _
      reason := update_of_ne hne _ _
      entries := by constructor <;> exact update_of_ne hne _ _ }
  · -- the context that is cancelled belongs to this run
    split at hc
    · rename_i ctx hctx
      have hr' := hr.context ctx hctx
      have hc : Function.update e.cancelled ctx true t = true := hc
      rw [update_of_ne] at hc
      · exact hc
      · rintro rfl
        exact hne (Option.some.inj (hrun.symm.trans hr'))
    · exact hc
  · exact { hr with
      begun := fun _ => hr.begun (.inl (List.ne_nil_of_mem hi))
      free := fun _ => by constructor <;> simp
      single := fun t ht => by simp [ho] at ht
      live := .inl (by simp only [update_self, hl])
      context := fun t ht => by simp at ht
      cancelled := fun _ t ht => by simp [ho] at ht
      finished := fun hti _ => .inr (hs hti)
      reason := fun h => by simp at h }
  · have hn : j ∉ e.owners runID := mem_owners_of_ne hr hi hj
    exact { refl j e runID with
      dismissed := fun _ _ _ _ => .inr (.inr (by simp))
      owner := by simpa only [update_self] using List.mem_erase_of_ne hj
      entries := fun h => absurd h hn
      live := fun h => absurd h hn
      lease := fun h => absurd h hn }

end Operations

/-- An operation that a thread may carry out keeps the invariant of every run and the reliance of
every other thread. -/
theorem Op.custody {timely : Prop} {env : Server} {i : Nat} {e : Executor} {a : Answer} (op : Op)
    (hinv : ∀ id, RunInv timely e id) (hp : op.pre timely i e)
    (hok : startsOnce e i op a = true) (hcr : ∀ runID input parent,
      op = .create runID input parent → timely → e.timers (createdId runID a) = false) :
    Custody timely i e (op.run env a e).2 := by
  cases op with
  | create => exact custody_create hinv hok (hcr _ _ _ rfl)
  | setStatusRunning =>
    obtain ⟨rfl, hc⟩ := hp
    exact custody_setStatusRunning hinv hc hok
  | setStatus by_ =>
    cases by_ with
    | start =>
      obtain ⟨rfl, hi, hf, hl⟩ := hp
      exact custody_setStatus_start hinv hi hf hl
    | stop self =>
      obtain rfl : self = i := hp
      exact custody_setStatus_stop hinv
    | goroutine => exact custody_store _ hinv (by simp) rfl
  | registerCancel =>
    obtain ⟨rfl, hi, hf, hc⟩ := hp
    exact custody_registerCancel hinv hi hf hc
  | spawn =>
    obtain ⟨rfl, hi, hl⟩ := hp
    exact custody_spawn hinv hi hl
  | lookupCancel _ self =>
    obtain rfl : self = i := hp
    exact custody_lookupCancel hinv
  | cancel => exact custody_cancel hinv hp
  | registerRun =>
    obtain ⟨rfl, hi⟩ := hp
    exact custody_registerRun hinv hi
  | startTimers => exact custody_startTimers hinv hp
  | signalLeaseEnd => exact custody_signalLeaseEnd hinv
  | takeOnlineCompletionReason => exact custody_takeReason hinv hp.1 hp.2
  | cleanup =>
    obtain ⟨rfl, hi, hs⟩ := hp
    exact custody_cleanup hinv hi hs
  | setOnlineLeaseDeadline =>
    exact custody_of_sameRun hinv (fun id =>
      { refl e id with entries := .same rfl }) rfl rfl
  | _ => exact custody_store _ hinv (by simp) rfl

end SimCore.Runs
