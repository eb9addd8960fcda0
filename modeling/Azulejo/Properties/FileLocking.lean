import Azulejo.FilesystemAdapters.FileLock
import Mathlib.Data.Fintype.Card

/-!
# No thread waits for ever

A thread takes the lock of a resource before the one of the files, except for a resource that it
has just made, which no other thread can know of. So the threads never wait for each other in a
circle. A registered constructor that copies a resource breaks the order: its result shares the
mutex of the original.
-/

namespace Azulejo

open LockOrder Transitions

namespace FileLocks

/-! ## The order of the locks -/

/-- The lock of a resource that other threads know is taken by a thread that holds nothing. -/
def Ordered (known : List Nat) : List FileMutex → List (Op FileMutex) → Prop
  | held, [] => held = []
  | held, .acquire .file :: ops => Ordered known (.file :: held) ops
  | held, .acquire (.resource mutex) :: ops =>
    FileMutex.resource mutex ∉ held ∧ (mutex ∈ known → held = []) ∧
      Ordered known (.resource mutex :: held) ops
  | held, .release lock :: ops => Ordered known (held.erase lock) ops

/-- The constructor makes a resource with a mutex of its own. -/
def FreshCall : FileCall → Prop
  | .deserialize (.generated (some _)) => False
  | _ => True

def Fresh : FileLockEvent → Prop
  | .call _ call => FreshCall call
  | _ => True

/-- The thread holds the mutex of a resource or is going to take it. -/
def Mentions (thread : Thread FileMutex) (mutex : Nat) : Prop :=
  .acquire (.resource mutex) ∈ thread.ops ∨ .resource mutex ∈ thread.held

/-- Every thread keeps to the order, and only one that makes a resource mentions one that is not
known. -/
structure Safe (w : FileLocks) : Prop where
  exclusive : Exclusive w.threads
  ordered : ∀ thread ∈ w.threads, Ordered w.known thread.held thread.ops
  mentions : ∀ (t : Nat) (thread : Thread FileMutex) (mutex : Nat),
    w.threads[t]? = some thread → Mentions thread mutex →
    mutex ∈ w.known ∨ w.making[t]? = some (some mutex)
  making : ∀ (t mutex : Nat), w.making[t]? = some (some mutex) →
    mutex ∉ w.known ∧ mutex < w.next
  distinct : ∀ (t u mutex : Nat), w.making[t]? = some (some mutex) →
    w.making[u]? = some (some mutex) → t = u
  known : ∀ mutex ∈ w.known, mutex < w.next

/-- The lock of the files is above those of the resources. -/
def rank : FileMutex → Bool
  | .resource _ => false
  | .file => true

theorem ordered_ops {known : List Nat} {new : Nat} (hnew : new ∉ known) {call : FileCall}
    (hfresh : FreshCall call) : Ordered known [] (call.ops new) := by
  cases call with
  | lock mutex => exact ⟨List.not_mem_nil, fun _ => rfl, by simp [Ordered]⟩
  | serialize mutex emptyKey =>
    cases emptyKey <;> exact ⟨List.not_mem_nil, fun _ => rfl, by simp [Ordered]⟩
  | unserialize emptyKey => cases emptyKey <;> simp [Ordered, FileCall.ops]
  | registry rejected => cases rejected <;> simp [Ordered, FileCall.ops]
  | deserialize ends =>
    cases ends with
    | emptyKey => rfl
    | fileFails => simp [Ordered, FileCall.ops]
    | notRegistered => simp [Ordered, FileCall.ops]
    | generated copied =>
      cases copied with
      | none => simp [Ordered, FileCall.ops, hnew]
      | some mutex => exact hfresh.elim

theorem mentions_ops {new mutex : Nat} {call : FileCall}
    (h : Mentions ⟨[], call.ops new⟩ mutex) : mutex ∈ call.uses ∨ call.makes new = some mutex := by
  have hacquire : .acquire (.resource mutex) ∈ call.ops new := h.resolve_right List.not_mem_nil
  cases call with
  | lock other =>
    left
    simpa [FileCall.ops, FileCall.uses] using hacquire
  | serialize other emptyKey =>
    left
    cases emptyKey <;> simpa [FileCall.ops, FileCall.uses] using hacquire
  | unserialize emptyKey => cases emptyKey <;> simp [FileCall.ops] at hacquire
  | registry rejected => cases rejected <;> simp [FileCall.ops] at hacquire
  | deserialize ends =>
    cases ends with
    | emptyKey => simp [FileCall.ops] at hacquire
    | fileFails => simp [FileCall.ops] at hacquire
    | notRegistered => simp [FileCall.ops] at hacquire
    | generated copied =>
      cases copied with
      | none =>
        right
        simpa [FileCall.ops, FileCall.makes, eq_comm] using hacquire
      | some other =>
        left
        simpa [FileCall.ops, FileCall.uses] using hacquire

/-- A resource that becomes known matters to the threads that mention it alone. -/
theorem ordered_append {known : List Nat} {mutex : Nat} {held : List FileMutex}
    {ops : List (Op FileMutex)} (h : Ordered known held ops)
    (hops : .acquire (.resource mutex) ∉ ops) : Ordered (known ++ [mutex]) held ops := by
  induction ops generalizing held with
  | nil => exact h
  | cons op ops ih =>
    obtain ⟨hop, hrest⟩ := List.ne_and_not_mem_of_not_mem_cons hops
    cases op with
    | acquire lock =>
      cases lock with
      | file => exact ih h hrest
      | resource other =>
        obtain ⟨hheld, hknown, hnext⟩ := h
        refine ⟨hheld, fun hother => ?_, ih hnext hrest⟩
        rcases List.mem_append.mp hother with hother | hother
        · exact hknown hother
        · rw [List.mem_singleton.mp hother] at hop
          exact absurd rfl hop
    | release lock => exact ih h hrest

/-- Threads that keep to the order only wait upwards. -/
theorem Safe.inOrder {w : FileLocks} (h : w.Safe) :
    InOrder FileMutex.recursive rank w.threads := by
  refine ⟨?_, ?_, ?_⟩
  · intro t thread lock ops ht hops hwaits other hother
    have hordered := h.ordered thread (List.mem_of_getElem? ht)
    rw [hops] at hordered
    cases lock with
    | file =>
      cases other with
      | file => exact absurd hwaits (h.exclusive.not_heldByOther ht hother)
      | resource mutex => exact Bool.false_lt_true
    | resource mutex =>
      obtain ⟨-, hknown, -⟩ := hordered
      obtain ⟨u, holder, hut, hu, hheld⟩ := heldByOther_iff.mp hwaits
      have hmentions : Mentions thread mutex := Or.inl (by rw [hops]; exact List.mem_cons_self)
      have hmutex : mutex ∈ w.known := by
        rcases h.mentions t thread mutex ht hmentions with hmutex | hmaking
        · exact hmutex
        · rcases h.mentions u holder mutex hu (Or.inr hheld) with hmutex | hmaking'
          · exact hmutex
          · exact absurd (h.distinct u t mutex hmaking' hmaking) hut
      rw [hknown hmutex] at hother
      cases hother
  · intro thread hthread lock ops hops hlock
    have hordered := h.ordered thread hthread
    rw [hops] at hordered
    cases lock with
    | file => rfl
    | resource mutex => exact absurd hlock hordered.1
  · intro thread hthread hops
    have hordered := h.ordered thread hthread
    rwa [hops] at hordered

/-! ## Every event keeps the order -/

theorem makes_eq {new mutex : Nat} {call : FileCall} (h : call.makes new = some mutex) :
    mutex = new := by
  cases call with
  | deserialize ends =>
    cases ends with
    | generated copied =>
      cases copied with
      | none => exact (Option.some.inj h).symm
      | some other => cases h
    | _ => cases h
  | _ => cases h

theorem safe_start (threads resources : Nat) : (start threads resources).Safe := by
  have hthread : ∀ thread ∈ (start threads resources).threads, thread = ⟨[], []⟩ :=
    fun thread hthread => List.eq_of_mem_replicate hthread
  have hmaking : ∀ (t mutex : Nat),
      (start threads resources).making[t]? ≠ some (some mutex) := by
    intro t mutex h
    cases List.eq_of_mem_replicate (List.mem_of_getElem? h)
  refine ⟨?_, ?_, ?_, ?_, ?_, ?_⟩
  · intro t u thread other lock ht hu hlock
    rw [hthread thread (List.mem_of_getElem? ht)] at hlock
    cases hlock
  · intro thread h
    rw [hthread thread h]
    rfl
  · intro t thread mutex ht h
    rw [hthread thread (List.mem_of_getElem? ht)] at h
    rcases h with h | h <;> cases h
  · intro t mutex h
    exact absurd h (hmaking t mutex)
  · intro t u mutex h
    exact absurd h (hmaking t mutex)
  · intro mutex h
    exact List.mem_range.mp h

theorem safe_call {w : FileLocks} (h : w.Safe) {t : Nat} (hidle : w.idle t none) {call : FileCall}
    (huses : ∀ mutex ∈ call.uses, mutex ∈ w.known) (hfresh : FreshCall call) :
    Safe { w with
      threads := w.threads.set t ⟨[], call.ops w.next⟩
      making := w.making.set t (call.makes w.next)
      next := w.next + 1 } := by
  obtain ⟨-, hnone⟩ := hidle
  have hnext : w.next ∉ w.known := fun hmem => Nat.lt_irrefl _ (h.known _ hmem)
  have hset : (w.making.set t (call.makes w.next))[t]? = some (call.makes w.next) :=
    List.getElem?_set_self (List.getElem?_eq_some_iff.mp hnone).1
  refine ⟨?_, ?_, ?_, ?_, ?_, ?_⟩
  · exact exclusive_set h.exclusive fun lock hlock => absurd hlock List.not_mem_nil
  · intro thread hthread
    obtain ⟨u, hu⟩ := List.mem_iff_getElem?.mp hthread
    rcases getElem?_set_other hu with ⟨-, rfl⟩ | ⟨-, hu⟩
    · exact ordered_ops hnext hfresh
    · exact h.ordered thread (List.mem_of_getElem? hu)
  · intro u thread mutex hu hmentions
    rcases getElem?_set_other hu with ⟨rfl, rfl⟩ | ⟨hut, hu⟩
    · rcases mentions_ops hmentions with hmutex | hmakes
      · exact Or.inl (huses mutex hmutex)
      · exact Or.inr (by rw [hset, hmakes])
    · rw [List.getElem?_set_ne (Ne.symm hut)]
      exact h.mentions u thread mutex hu hmentions
  · intro u mutex hu
    rcases getElem?_set_other hu with ⟨-, hmakes⟩ | ⟨-, hu⟩
    · rw [makes_eq hmakes.symm]
      exact ⟨hnext, Nat.lt_succ_self _⟩
    · obtain ⟨hknown, hless⟩ := h.making u mutex hu
      exact ⟨hknown, Nat.lt_succ_of_lt hless⟩
  · intro u v mutex hu hv
    rcases getElem?_set_other hu with ⟨hut, hmakes⟩ | ⟨-, hu⟩
    · rcases getElem?_set_other hv with ⟨hvt, -⟩ | ⟨-, hv⟩
      · rw [hut, hvt]
      · have hless := (h.making v mutex hv).2
        rw [makes_eq hmakes.symm] at hless
        exact absurd hless (Nat.lt_irrefl _)
    · rcases getElem?_set_other hv with ⟨-, hmakes⟩ | ⟨-, hv⟩
      · have hless := (h.making u mutex hu).2
        rw [makes_eq hmakes.symm] at hless
        exact absurd hless (Nat.lt_irrefl _)
      · exact h.distinct u v mutex hu hv
  · intro mutex hmutex
    exact Nat.lt_succ_of_lt (h.known mutex hmutex)

/-- A thread that goes on mentions no more than before, and keeps to the order. -/
theorem safe_go {w : FileLocks} (h : w.Safe) {t : Nat} {threads : List (Thread FileMutex)}
    (hgo : go FileMutex.recursive w.threads t = some threads) :
    Safe { w with threads := threads } := by
  have hexclusive := exclusive_go h.exclusive hgo
  have hset : ∃ thread thread', w.threads[t]? = some thread ∧ threads = w.threads.set t thread' ∧
      Ordered w.known thread'.held thread'.ops ∧
      ∀ mutex, Mentions thread' mutex → Mentions thread mutex := by
    rcases go_cases hgo with ⟨held, lock, ops, ht, -, -, rfl⟩ | ⟨held, lock, ops, ht, rfl⟩
    · have hordered := h.ordered _ (List.mem_of_getElem? ht)
      refine ⟨_, _, ht, rfl, ?_, ?_⟩
      · cases lock with
        | file => exact hordered
        | resource mutex => exact hordered.2.2
      · rintro mutex (hops | hheld)
        · exact Or.inl (List.mem_cons_of_mem _ hops)
        · rcases List.mem_cons.mp hheld with hsame | hheld
          · left
            rw [hsame]
            exact List.mem_cons_self
          · exact Or.inr hheld
    · have hordered := h.ordered _ (List.mem_of_getElem? ht)
      refine ⟨_, _, ht, rfl, hordered, ?_⟩
      rintro mutex (hops | hheld)
      · exact Or.inl (List.mem_cons_of_mem _ hops)
      · exact Or.inr (List.mem_of_mem_erase hheld)
  obtain ⟨thread, thread', ht, rfl, hordered, hmentions⟩ := hset
  refine ⟨hexclusive, ?_, ?_, h.making, h.distinct, h.known⟩
  · intro other hother
    obtain ⟨u, hu⟩ := List.mem_iff_getElem?.mp hother
    rcases getElem?_set_other hu with ⟨-, rfl⟩ | ⟨-, hu⟩
    · exact hordered
    · exact h.ordered other (List.mem_of_getElem? hu)
  · intro u other mutex hu hother
    rcases getElem?_set_other hu with ⟨rfl, rfl⟩ | ⟨-, hu⟩
    · exact h.mentions u thread mutex ht (hmentions mutex hother)
    · exact h.mentions u other mutex hu hother

/-- A thread that is not in a call mentions no resource. -/
theorem not_mentions_of_idle {w : FileLocks} (h : w.Safe) {t : Nat} {thread : Thread FileMutex}
    (ht : w.threads[t]? = some thread) (hops : thread.ops = []) (mutex : Nat) :
    ¬ Mentions thread mutex := by
  have hordered := h.ordered thread (List.mem_of_getElem? ht)
  rw [hops] at hordered
  rintro (hmem | hmem)
  · rw [hops] at hmem
    cases hmem
  · rw [show thread.held = [] from hordered] at hmem
    cases hmem

theorem safe_ends {w : FileLocks} (h : w.Safe) {t mutex : Nat}
    (hidle : w.idle t (some mutex)) {known : List Nat}
    (hknown : known = w.known ∨ known = w.known ++ [mutex]) :
    Safe { w with making := w.making.set t none, known := known } := by
  obtain ⟨⟨thread, hthread, hops⟩, hmaking⟩ := hidle
  have ht : w.threads[t]? = some thread := hthread
  have hmore : ∀ other, other ∈ w.known → other ∈ known := by
    intro other hother
    rcases hknown with rfl | rfl
    · exact hother
    · exact List.mem_append_left _ hother
  have hless : ∀ other, other ∈ known → other ∈ w.known ∨ other = mutex := by
    intro other hother
    rcases hknown with rfl | rfl
    · exact Or.inl hother
    · exact (List.mem_append.mp hother).imp id List.mem_singleton.mp
  -- no other thread mentions the resource that the thread has made
  have hothers : ∀ (u : Nat) (other : Thread FileMutex), w.threads[u]? = some other →
      ¬ Mentions other mutex := by
    intro u other hu hmentions
    rcases h.mentions u other mutex hu hmentions with hmutex | hmaking'
    · exact (h.making t mutex hmaking).1 hmutex
    · obtain rfl := h.distinct u t mutex hmaking' hmaking
      rw [ht] at hu
      obtain rfl := Option.some.inj hu
      exact not_mentions_of_idle h ht hops mutex hmentions
  refine ⟨h.exclusive, ?_, ?_, ?_, ?_, ?_⟩
  · intro other hother
    have hordered := h.ordered other hother
    rcases hknown with rfl | rfl
    · exact hordered
    · obtain ⟨u, hu⟩ := List.mem_iff_getElem?.mp hother
      exact ordered_append hordered fun hmem => hothers u other hu (Or.inl hmem)
  · intro u other mutex' hu hmentions
    rcases h.mentions u other mutex' hu hmentions with hmutex | hmaking'
    · exact Or.inl (hmore mutex' hmutex)
    · right
      rw [List.getElem?_set_ne]
      · exact hmaking'
      · rintro rfl
        rw [ht] at hu
        obtain rfl := Option.some.inj hu
        exact not_mentions_of_idle h ht hops mutex' hmentions
  · intro u mutex' hu
    rcases getElem?_set_other hu with ⟨-, hnone⟩ | ⟨hut, hu⟩
    · cases hnone
    · obtain ⟨hnot, hnext⟩ := h.making u mutex' hu
      refine ⟨fun hmem => ?_, hnext⟩
      rcases hless mutex' hmem with hmem | rfl
      · exact hnot hmem
      · exact hut (h.distinct u t mutex' hu hmaking)
  · intro u v mutex' hu hv
    rcases getElem?_set_other hu with ⟨-, hnone⟩ | ⟨-, hu⟩
    · cases hnone
    · rcases getElem?_set_other hv with ⟨-, hnone⟩ | ⟨-, hv⟩
      · cases hnone
      · exact h.distinct u v mutex' hu hv
  · intro mutex' hmem
    rcases hless mutex' hmem with hmem | rfl
    · exact h.known mutex' hmem
    · exact (h.making t mutex' hmaking).2

theorem safe_step (w : FileLocks) (event : FileLockEvent) (w' : FileLocks) (h : w.Safe)
    (hfresh : Fresh event) (hstep : w.step event = some w') : w'.Safe := by
  cases event with
  | call t call =>
    simp only [step, Option.ite_none_right_eq_some, Option.some.injEq] at hstep
    obtain ⟨⟨hidle, huses⟩, rfl⟩ := hstep
    exact safe_call h hidle huses hfresh
  | go t =>
    obtain ⟨threads, hgo, rfl⟩ := Option.map_eq_some_iff.mp hstep
    exact safe_go h hgo
  | returns t =>
    simp only [step] at hstep
    split at hstep
    · simp only [Option.ite_none_right_eq_some, Option.some.injEq] at hstep
      obtain ⟨hidle, rfl⟩ := hstep
      exact safe_ends h hidle (Or.inr rfl)
    · cases hstep
  | throws t =>
    simp only [step] at hstep
    split at hstep
    · simp only [Option.ite_none_right_eq_some, Option.some.injEq] at hstep
      obtain ⟨hidle, rfl⟩ := hstep
      exact safe_ends h hidle (Or.inl rfl)
    · cases hstep

theorem safe_after {n k : Nat} {events : List FileLockEvent} {w : FileLocks}
    (h : after step (start n k) events = some w) (hfresh : ∀ event ∈ events, Fresh event) :
    w.Safe := by
  have halong : Along step (fun _ event => Fresh event) (start n k) events :=
    along_of_forall (fun _ event hevent => hfresh event hevent) _
  exact invariant Safe (fun w event w' => safe_step w event w') (safe_start n k) halong h

/-! ## Every call ends -/

def Goes : FileLockEvent → Prop
  | .go _ => True
  | _ => False

/-- A thread that goes on leaves the others their work. -/
theorem safe_goes {w w' : FileLocks} (h : w.Safe) {event : FileLockEvent} (hgoes : Goes event)
    (hstep : w.step event = some w') : w'.Safe ∧ work w'.threads + 1 = work w.threads := by
  cases event with
  | go t =>
    obtain ⟨threads, hgo, rfl⟩ := Option.map_eq_some_iff.mp hstep
    exact ⟨safe_go h hgo, work_go hgo⟩
  | _ => exact hgoes.elim

theorem safe_after_goes {w w' : FileLocks} (h : w.Safe) {events : List FileLockEvent}
    (hgoes : ∀ event ∈ events, Goes event) (hafter : after step w events = some w') :
    w'.Safe ∧ events.length + work w'.threads = work w.threads := by
  induction events generalizing w with
  | nil =>
    cases hafter
    exact ⟨h, Nat.zero_add _⟩
  | cons event events ih =>
    obtain ⟨hevent, hrest⟩ := List.forall_mem_cons.mp hgoes
    obtain ⟨next, hstep, hafter⟩ := after_cons_eq_some hafter
    obtain ⟨hsafe, hless⟩ := safe_goes h hevent hstep
    obtain ⟨hsafe', hwork⟩ := ih hsafe hrest hafter
    refine ⟨hsafe', ?_⟩
    rw [List.length_cons]
    omega

/-- Where no thread can go on, all calls have ended. -/
theorem Safe.ended {w : FileLocks} (h : w.Safe) (hquiet : ∀ t, w.step (.go t) = none) :
    ∀ thread ∈ w.threads, thread = ⟨[], []⟩ := by
  intro thread hthread
  have hops : thread.ops = [] := by
    by_contra hleft
    obtain ⟨t, ht⟩ := exists_go h.inOrder hthread hleft
    have hnone : go FileMutex.recursive w.threads t = none := Option.map_eq_none_iff.mp (hquiet t)
    rw [hnone] at ht
    cases ht
  have hheld : thread.held = [] := h.inOrder.done thread hthread hops
  obtain ⟨held, ops⟩ := thread
  cases hops
  cases hheld
  rfl

/-- With constructors that make resources of their own, the calls in progress end however the
threads take turns: each turn is one of the operations that are left, and where no thread can go
on, none has anything left to do and none holds a lock. -/
theorem calls_end {n k : Nat} {events : List FileLockEvent} {w : FileLocks}
    (h : after step (start n k) events = some w) (hfresh : ∀ event ∈ events, Fresh event) :
    Exclusive w.threads ∧
      ∀ (turns : List FileLockEvent) (w' : FileLocks), (∀ turn ∈ turns, Goes turn) →
        after step w turns = some w' →
        Exclusive w'.threads ∧ turns.length + work w'.threads = work w.threads ∧
          ((∀ t, w'.step (.go t) = none) → ∀ thread ∈ w'.threads, thread = ⟨[], []⟩) := by
  have hsafe := safe_after h hfresh
  refine ⟨hsafe.exclusive, fun turns w' hgoes hafter => ?_⟩
  obtain ⟨hsafe', hwork⟩ := safe_after_goes hsafe hgoes hafter
  exact ⟨hsafe'.exclusive, hwork, hsafe'.ended⟩

/-- One thread saves a resource while another one makes one. -/
def saveAndLoad : List FileLockEvent :=
  [.call 0 (.serialize 0 false), .call 1 (.deserialize (.generated none)), .go 0, .go 1, .go 1]

theorem calls_end_saveAndLoad :
    ∃ w, after step (start 2 1) saveAndLoad = some w ∧
      Exclusive w.threads ∧
      ∀ (turns : List FileLockEvent) (w' : FileLocks), (∀ turn ∈ turns, Goes turn) →
        after step w turns = some w' →
        Exclusive w'.threads ∧ turns.length + work w'.threads = work w.threads ∧
          ((∀ t, w'.step (.go t) = none) → ∀ thread ∈ w'.threads, thread = ⟨[], []⟩) :=
  have hrun : (after step (start 2 1) saveAndLoad).isSome = true := by decide
  have hfresh : ∀ event ∈ saveAndLoad, Fresh event := by simp [saveAndLoad, Fresh, FreshCall]
  ⟨_, (Option.some_get hrun).symm, calls_end (Option.some_get hrun).symm hfresh⟩

/-! ## Resources that share a mutex -/

/-- What two threads are at, when the others hold nothing. -/
structure Pair (w : FileLocks) (t u : Nat) (thread other : Thread FileMutex) : Prop where
  first : w.threads[t]? = some thread
  second : w.threads[u]? = some other
  others : ∀ (v : Nat) (third : Thread FileMutex), v ≠ t → v ≠ u → w.threads[v]? = some third →
    third.held = []

theorem Pair.symm {w : FileLocks} {t u : Nat} {thread other : Thread FileMutex}
    (h : w.Pair t u thread other) : w.Pair u t other thread :=
  ⟨h.second, h.first, fun v third hvu hvt => h.others v third hvt hvu⟩

theorem Pair.set {w : FileLocks} {t u : Nat} (htu : t ≠ u) {thread other : Thread FileMutex}
    (h : w.Pair t u thread other) {w' : FileLocks} {thread' : Thread FileMutex}
    (hthreads : w'.threads = w.threads.set t thread') : w'.Pair t u thread' other := by
  have hless := (List.getElem?_eq_some_iff.mp h.first).1
  refine ⟨?_, ?_, fun v third hvt hvu hv => ?_⟩
  · rw [hthreads, List.getElem?_set_self hless]
  · rw [hthreads, List.getElem?_set_ne htu, h.second]
  · rw [hthreads, List.getElem?_set_ne (Ne.symm hvt)] at hv
    exact h.others v third hvt hvu hv

theorem Pair.call {w : FileLocks} {t u : Nat} (htu : t ≠ u) {other : Thread FileMutex}
    (h : w.Pair t u ⟨[], []⟩ other) (hmaking : w.making[t]? = some none) (call : FileCall)
    (huses : ∀ mutex ∈ call.uses, mutex ∈ w.known) :
    ∃ w', w.step (.call t call) = some w' ∧ w'.Pair t u ⟨[], call.ops w.next⟩ other ∧
      w'.known = w.known ∧ w'.making[u]? = w.making[u]? := by
  have hcalls : w.idle t none ∧ ∀ mutex ∈ call.uses, mutex ∈ w.known :=
    ⟨⟨⟨_, h.first, rfl⟩, hmaking⟩, huses⟩
  exact ⟨_, if_pos hcalls, h.set htu rfl, rfl, List.getElem?_set_ne htu⟩

theorem Pair.acquire {w : FileLocks} {t u : Nat} (htu : t ≠ u) {held : List FileMutex}
    {lock : FileMutex} {ops : List (Op FileMutex)} {other : Thread FileMutex}
    (h : w.Pair t u ⟨held, .acquire lock :: ops⟩ other) (hother : lock ∉ other.held)
    (hagain : lock ∈ held → lock.recursive = true) :
    ∃ w', w.step (.go t) = some w' ∧ w'.Pair t u ⟨lock :: held, ops⟩ other := by
  have hfree : ¬ HeldByOther w.threads t lock := by
    intro hheld
    obtain ⟨v, third, hvt, hv, hheld⟩ := heldByOther_iff.mp hheld
    by_cases hvu : v = u
    · rw [hvu, h.second] at hv
      obtain rfl := Option.some.inj hv
      exact hother hheld
    · rw [h.others v third hvt hvu hv] at hheld
      cases hheld
  refine ⟨{ w with threads := w.threads.set t ⟨lock :: held, ops⟩ }, ?_, h.set htu rfl⟩
  simp only [step, go_acquire h.first hfree hagain, Option.map_some]

theorem Pair.release {w : FileLocks} {t u : Nat} (htu : t ≠ u) {held : List FileMutex}
    {lock : FileMutex} {ops : List (Op FileMutex)} {other : Thread FileMutex}
    (h : w.Pair t u ⟨held, .release lock :: ops⟩ other) :
    ∃ w', w.step (.go t) = some w' ∧ w'.Pair t u ⟨held.erase lock, ops⟩ other := by
  refine ⟨{ w with threads := w.threads.set t ⟨held.erase lock, ops⟩ }, ?_, h.set htu rfl⟩
  simp only [step, go_release h.first, Option.map_some]

/-- Each of the two threads waits for a lock of the other one. -/
structure Waiting (w : FileLocks) (t u : Nat) (thread other : Thread FileMutex) : Prop where
  first : w.threads[t]? = some thread
  second : w.threads[u]? = some other
  waits : ∃ lock ∈ other.held, ∃ ops, thread.ops = .acquire lock :: ops
  waited : ∃ lock ∈ thread.held, ∃ ops, other.ops = .acquire lock :: ops

theorem Waiting.symm {w : FileLocks} {t u : Nat} {thread other : Thread FileMutex}
    (h : w.Waiting t u thread other) : w.Waiting u t other thread :=
  ⟨h.second, h.first, h.waited, h.waits⟩

theorem Waiting.go_eq_none {w : FileLocks} {t u : Nat} (htu : t ≠ u)
    {thread other : Thread FileMutex} (h : w.Waiting t u thread other) :
    w.step (.go t) = none := by
  obtain ⟨held, ops⟩ := thread
  obtain ⟨lock, hheld, rest, rfl⟩ := h.waits
  have hother : HeldByOther w.threads t lock :=
    heldByOther_iff.mpr ⟨u, other, Ne.symm htu, h.second, hheld⟩
  simp only [step, LockOrder.go_eq_none h.first hother, Option.map_none]

theorem Waiting.not_idle {w : FileLocks} {t u : Nat} {thread other : Thread FileMutex}
    (h : w.Waiting t u thread other) {making : Option Nat} : ¬ w.idle t making := by
  rintro ⟨⟨thread', hthread', hops⟩, -⟩
  have ht : w.threads[t]? = some thread' := hthread'
  rw [h.first] at ht
  obtain rfl := Option.some.inj ht
  obtain ⟨lock, -, ops, hacquire⟩ := h.waits
  rw [hacquire] at hops
  cases hops

/-- Whatever happens, the two go on waiting. -/
theorem waiting_step {t u : Nat} (htu : t ≠ u) {thread other : Thread FileMutex} (w : FileLocks)
    (event : FileLockEvent) (w' : FileLocks) (h : w.Waiting t u thread other)
    (hstep : w.step event = some w') : w'.Waiting t u thread other := by
  have hset : ∀ (v : Nat) (third : Thread FileMutex), v ≠ t → v ≠ u →
      w'.threads = w.threads.set v third → w'.Waiting t u thread other := by
    intro v third hvt hvu hthreads
    refine ⟨?_, ?_, h.waits, h.waited⟩
    · rw [hthreads, List.getElem?_set_ne hvt, h.first]
    · rw [hthreads, List.getElem?_set_ne hvu, h.second]
  have hsame : w'.threads = w.threads → w'.Waiting t u thread other := fun hthreads =>
    ⟨by rw [hthreads, h.first], by rw [hthreads, h.second], h.waits, h.waited⟩
  cases event with
  | call v call =>
    simp only [step, Option.ite_none_right_eq_some, Option.some.injEq] at hstep
    obtain ⟨⟨hidle, -⟩, rfl⟩ := hstep
    refine hset v _ ?_ ?_ rfl
    · rintro rfl
      exact h.not_idle hidle
    · rintro rfl
      exact h.symm.not_idle hidle
  | go v =>
    have hvt : v ≠ t := by
      rintro rfl
      rw [h.go_eq_none htu] at hstep
      cases hstep
    have hvu : v ≠ u := by
      rintro rfl
      rw [h.symm.go_eq_none (Ne.symm htu)] at hstep
      cases hstep
    obtain ⟨threads, hgo, rfl⟩ := Option.map_eq_some_iff.mp hstep
    rcases go_cases hgo with ⟨held, lock, ops, -, -, -, rfl⟩ | ⟨held, lock, ops, -, rfl⟩
    · exact hset v _ hvt hvu rfl
    · exact hset v _ hvt hvu rfl
  | returns v =>
    simp only [step] at hstep
    split at hstep
    · simp only [Option.ite_none_right_eq_some, Option.some.injEq] at hstep
      obtain ⟨-, rfl⟩ := hstep
      exact hsame rfl
    · cases hstep
  | throws v =>
    simp only [step] at hstep
    split at hstep
    · simp only [Option.ite_none_right_eq_some, Option.some.injEq] at hstep
      obtain ⟨-, rfl⟩ := hstep
      exact hsame rfl
    · cases hstep

/-- The registered constructor copies the resource that another thread is saving: the first thread
has the mutex of the resource and waits for the files, the second one has the files and waits for
the mutex that the copy shares, and neither call ever ends. -/
theorem copies_wait_for_ever {n k t u m : Nat} (ht : t < n) (hu : u < n) (htu : t ≠ u)
    (hm : m < k) :
    ∃ w, after step (start n k) [.call t (.serialize m false),
        .call u (.deserialize (.generated (some m))), .go t, .go u, .go u, .go u] = some w ∧
      ∀ (events : List FileLockEvent) (w' : FileLocks), after step w events = some w' →
        w'.step (.go t) = none ∧ w'.step (.go u) = none ∧
          ¬ w'.idle t none ∧ ¬ w'.idle u none := by
  have hmaking : ∀ v < n, (start n k).making[v]? = some none := fun v hv =>
    List.getElem?_replicate_of_lt hv
  have hknown : m ∈ (start n k).known := List.mem_range.mpr hm
  have hpair : (start n k).Pair t u ⟨[], []⟩ ⟨[], []⟩ := by
    refine ⟨List.getElem?_replicate_of_lt ht, List.getElem?_replicate_of_lt hu, ?_⟩
    intro v third _ _ hv
    rw [List.eq_of_mem_replicate (List.mem_of_getElem? hv)]
  have hut : u ≠ t := Ne.symm htu
  obtain ⟨w₁, hstep₁, hpair₁, hknown₁, hmaking₁⟩ :=
    hpair.call htu (hmaking t ht) (.serialize m false) (by simpa [FileCall.uses])
  obtain ⟨w₂, hstep₂, hpair₂, -, -⟩ :=
    hpair₁.symm.call hut (hmaking₁.trans (hmaking u hu)) (.deserialize (.generated (some m)))
      (by simpa [FileCall.uses, hknown₁])
  -- the first thread takes the mutex of the resource
  obtain ⟨w₃, hstep₃, hpair₃⟩ := hpair₂.symm.acquire htu List.not_mem_nil (by simp)
  -- the second one the lock of the files, which `GenerateResource` takes and releases once more
  obtain ⟨w₄, hstep₄, hpair₄⟩ := hpair₃.symm.acquire hut (by simp) (by simp)
  obtain ⟨w₅, hstep₅, hpair₅⟩ := hpair₄.acquire hut (by simp) (by simp [FileMutex.recursive])
  obtain ⟨w₆, hstep₆, hpair₆⟩ := hpair₅.release hut
  have hwaiting : w₆.Waiting t u _ _ :=
    ⟨hpair₆.second, hpair₆.first, ⟨.file, by simp, _, rfl⟩, ⟨.resource m, by simp, _, rfl⟩⟩
  refine ⟨w₆, ?_, fun events w' hafter => ?_⟩
  · rw [after_cons hstep₁, after_cons hstep₂, after_cons hstep₃, after_cons hstep₄,
      after_cons hstep₅, after_cons hstep₆]
    rfl
  · have hstill : w'.Waiting t u _ _ := Reaches.invariant _ (waiting_step htu) hwaiting
      ⟨events, hafter⟩
    exact ⟨hstill.go_eq_none htu, hstill.symm.go_eq_none hut, hstill.not_idle,
      hstill.symm.not_idle⟩

theorem copies_wait_for_ever_twoThreads :
    ∃ w, after step (start 2 1) [.call 0 (.serialize 0 false),
        .call 1 (.deserialize (.generated (some 0))), .go 0, .go 1, .go 1, .go 1] = some w ∧
      ∀ (events : List FileLockEvent) (w' : FileLocks), after step w events = some w' →
        w'.step (.go 0) = none ∧ w'.step (.go 1) = none ∧
          ¬ w'.idle 0 none ∧ ¬ w'.idle 1 none :=
  copies_wait_for_ever Nat.two_pos Nat.one_lt_two Nat.zero_ne_one Nat.one_pos

end FileLocks

end Azulejo
