import AttentionDB.Storage.Sleepers

/-!
# Waiting writers return

When no new write begins, the flush thread and the woken writers come to an end
after a number of steps that the state bounds, and then no writer is left in
`acquire_block`. Each step lowers a measure: a queued block counts for the
three sections of the flush thread that it needs, and a section may wake a
writer, which then runs once.
-/

namespace AttentionDB

open GuardedRuns BlobStore

set_option autoImplicit false

/-- The steps that finish what was begun: nothing enters `write`, and no thread
wakes up by itself. -/
def WakeLabel.finishes : WakeLabel → Prop
  | .writeResume _ _ | .flush _ _ | .flushWait => True
  | _ => False

def BlobStore.FlushPc.sectionsLeft : FlushPc → Nat
  | .idle => 0
  | .writing _ => 2
  | .written _ => 1

namespace WakeSystem

def pendingWork (s : WakeSystem) : Nat :=
  2 * (3 * s.system.store.flushQueue.length + s.system.flush.sectionsLeft) + s.woken.length +
    if s.flushAsleep then 0 else 1

end WakeSystem

section Progress

variable {s after : WakeSystem} {label : WakeLabel}

theorem flush_lowers {store next : BlobStore} {flush pc : FlushPc} {step : FlushStep}
    (cases : FlushCases store flush step pc next) :
    3 * next.flushQueue.length + pc.sectionsLeft + 1 ≤
      3 * store.flushQueue.length + flush.sectionsLeft := by
  cases cases with
  | returns b rest queue _ | takes b rest queue _ =>
      simp only [queue, List.length_cons, FlushPc.sectionsLeft]
      omega
  | writes b result | releases b => exact Nat.le_refl _

theorem finishing_step_lowers (inv : WakeInv s) (finishes : label.finishes)
    (moved : wakeMachine.exec s label = some after) : after.pendingWork < s.pendingWork := by
  cases label with
  | writeResume t io =>
      obtain ⟨request, outcome, store, isWoken, _, ran, rfl⟩ :=
        WakeSystem.write_resume_moved moved
      have acquired := acquire_places inv.running (acquire_cases ran)
      have positive := List.length_pos_of_mem isWoken
      simp only [WakeSystem.pendingWork, StoreSystem.after_section_store,
        StoreSystem.after_section_flush, acquired.queue, List.length_erase_of_mem isWoken]
      omega
  | flush step picked =>
      obtain ⟨pc, store, awake, ran, system, rfl, rfl, _, woke⟩ := WakeSystem.flush_moved moved
      have lower := flush_lowers (flush_places ran)
      rcases woke with ⟨_, rfl⟩ | ⟨_, _, rfl⟩
      · simp only [WakeSystem.pendingWork, awake]
        omega
      · simp only [WakeSystem.pendingWork, WakeSystem.wake, List.length_cons, awake]
        omega
  | flushWait =>
      simp only [wakeMachine, WakeSystem.exec] at moved
      split at moved
      · rename_i idle
        cases moved
        simp only [WakeSystem.pendingWork, idle.1, if_true]
        simp
      · contradiction
  | writeBegin | writeDirect | read | wakeWriter | wakeFlush => exact finishes.elim

/-- The flush thread takes a step where its own part allows one. -/
theorem flush_enabled {step : FlushStep} {pc : FlushPc} {store : BlobStore}
    (awake : s.flushAsleep = false)
    (ran : s.system.store.flushStep s.system.flush step = some (pc, store)) :
    ∃ picked next, wakeMachine.exec s (.flush step picked) = some next := by
  have runs : s.system.exec (.flush step) = some
      { s.system with flush := pc, store, unwritten := s.system.unwrittenAfter step } := by
    simp only [StoreSystem.exec, ran, Option.map_some]
  simp only [wakeMachine, WakeSystem.exec, awake, runs, Bool.false_eq_true, if_false]
  cases s.freeCv with
  | nil =>
      refine ⟨0, ?_⟩
      simp only [WakeSystem.notifyFree, if_true]
      split <;> exact ⟨_, rfl⟩
  | cons t others =>
      refine ⟨t, ?_⟩
      simp only [WakeSystem.notifyFree, List.mem_cons, true_or, if_true]
      split
      · simp
      · exact ⟨_, rfl⟩

/-- A woken writer can run. -/
theorem resume_enabled (inv : WakeInv s) {t : Nat} (isWoken : t ∈ s.woken) :
    ∃ next, wakeMachine.exec s (.writeResume t {}) = some next := by
  obtain ⟨request, waits⟩ := (inv.waiting t).2 (.inr isWoken)
  have ends : ∃ result, s.system.store.acquireAndAppend request {} = some result := by
    unfold acquireAndAppend
    split
    · split <;> exact ⟨_, rfl⟩
    · simp only
      split
      · exact ⟨_, rfl⟩
      · rename_i seg current
        split
        · exact ⟨_, rfl⟩
        · obtain ⟨active, isActive, _⟩ := Option.bind_eq_some_iff.1 current
          exact ⟨_, append_entry_eq _ _ active _ isActive⟩
  obtain ⟨result, ran⟩ := ends
  simp [wakeMachine, WakeSystem.exec, isWoken, StoreSystem.exec, waits, ran]

/-- Where no step is left, the flush thread sleeps and no writer waits. -/
theorem quiescent_no_waiting (inv : WakeInv s)
    (stuck : Quiescent wakeMachine (fun _ label => label.finishes) s) :
    s.flushAsleep = true ∧ ∀ t request, s.system.writers t ≠ .waiting request := by
  have noFlush : ∀ step, s.flushAsleep = false →
      s.system.store.flushStep s.system.flush step = none := by
    intro step awake
    by_contra enabled
    obtain ⟨⟨pc, store⟩, ran⟩ := Option.ne_none_iff_exists'.1 enabled
    obtain ⟨picked, next, moved⟩ := flush_enabled awake ran
    rw [stuck (.flush step picked) trivial] at moved
    contradiction
  have asleep : s.flushAsleep = true := by
    by_contra notAsleep
    have awake : s.flushAsleep = false := by simpa using notAsleep
    cases flush : s.system.flush with
    | writing b =>
        have blocked := noFlush (.write .complete) awake
        simp [flush, flushStep] at blocked
    | written b =>
        have blocked := noFlush .release awake
        simp [flush, flushStep] at blocked
    | idle =>
        cases queue : s.system.store.flushQueue with
        | nil =>
            have waits := stuck .flushWait trivial
            simp [wakeMachine, WakeSystem.exec, awake, flush, queue, inv.running] at waits
        | cons b rest =>
            have blocked := noFlush .pop awake
            simp only [flush, flushStep, flushPop, queue] at blocked
            split at blocked <;> contradiction
  have noWoken : s.woken = [] := by
    by_contra someone
    obtain ⟨t, isWoken⟩ := List.exists_mem_of_ne_nil _ someone
    obtain ⟨next, moved⟩ := resume_enabled inv isWoken
    rw [stuck (.writeResume t {}) trivial] at moved
    contradiction
  have nobody : s.freeCv = [] := by
    by_contra sleepers
    obtain ⟨idle, queue⟩ := inv.idle asleep
    have spoken := inv.spoken sleepers
    have places := inv.places
    have size := inv.size
    have someone := List.length_pos_iff.2 sleepers
    simp only [moving, idle, queue, noWoken, FlushPc.block, Option.toList_none,
      List.length_nil] at places spoken
    omega
  refine ⟨asleep, ?_⟩
  intro t request waits
  have listed := (inv.waiting t).1 ⟨request, waits⟩
  rw [nobody, noWoken] at listed
  simp at listed

/-- No writer waits for ever. From any reachable state, whatever the writers,
the readers and the flush thread did before and however the block writes and
the segments fail from there on, the threads that are left come to an end when
no new write begins: every run of theirs is bounded, every run can be continued
to its end, and at its end all writers have left `acquire_block`. -/
theorem waiting_writers_return (reached : Reach wakeMachine s) {n : Nat}
    (run : Steps wakeMachine (fun _ label => label.finishes) s n after) :
    n ≤ s.pendingWork ∧
      (∃ more last, Steps wakeMachine (fun _ label => label.finishes) after more last ∧
        Quiescent wakeMachine (fun _ label => label.finishes) last) ∧
      (Quiescent wakeMachine (fun _ label => label.finishes) after →
        ∀ t request, after.system.writers t ≠ .waiting request) := by
  have keep : ∀ (state : WakeSystem) (label : WakeLabel) (next : WakeSystem), WakeInv state →
      label.finishes → wakeMachine.exec state label = some next → WakeInv next :=
    fun state label next inv _ moved => inv.step moved
  have lowers : ∀ (state : WakeSystem) (label : WakeLabel) (next : WakeSystem), WakeInv state →
      label.finishes → wakeMachine.exec state label = some next →
        next.pendingWork < state.pendingWork :=
    fun state label next inv finishes moved => finishing_step_lowers inv finishes moved
  obtain ⟨inv, bound⟩ := run.length_le WakeSystem.pendingWork WakeInv keep lowers (reach_wake reached)
  refine ⟨by omega, ?_, fun stuck => (quiescent_no_waiting inv stuck).2⟩
  exact exists_quiescent WakeSystem.pendingWork WakeInv keep lowers inv

end Progress

/-- The writer that sleeps in a store of one block returns after seven steps at
the most. -/
theorem waiting_writers_return_asleep :
    sleepingState.system.writers 1 = .waiting blockRequest ∧
      ∃ n last, n ≤ 7 ∧ Steps wakeMachine (fun _ label => label.finishes) sleepingState n last ∧
        ∀ t request, last.system.writers t ≠ .waiting request := by
  obtain ⟨_, ⟨n, last, run, stuck⟩, _⟩ := waiting_writers_return sleeping_state_reached .refl
  obtain ⟨bound, _, returned⟩ := waiting_writers_return sleeping_state_reached run
  have seven : sleepingState.pendingWork = 7 := by decide
  exact ⟨rfl, n, last, by omega, run, returned stuck⟩

end AttentionDB
