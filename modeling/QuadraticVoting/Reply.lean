import QuadraticVoting.Log.Notice

/-!
# Replies

What a call leaves behind: its result, the state after it, and the notices it gave, in order. A
call that fails has a state after it too; that this state is the one before is a fact about the
call and not about the type.
-/

namespace QuadraticVoting

structure Reply (S α : Type) where
  result : Except Fault α
  state : S
  notices : List Log.Notice

namespace Reply

variable {S T α β : Type}

/-! ### Going on -/

def done (s : S) (a : α) : Reply S α := ⟨.ok a, s, []⟩

/-- Go on from a reply; what has failed is not gone on from. -/
def andThen (r : Reply S α) (k : S → α → Reply S β) : Reply S β :=
  match r.result with
  | .error f => ⟨.error f, r.state, r.notices⟩
  | .ok a =>
    let r' := k r.state a
    ⟨r'.result, r'.state, r.notices ++ r'.notices⟩

/-- The same reply about a state that holds the first. -/
def within (r : Reply S α) (put : S → T) : Reply T α := ⟨r.result, put r.state, r.notices⟩

def map (r : Reply S α) (f : α → β) : Reply S β := ⟨r.result.map f, r.state, r.notices⟩

/-- Change the state of a call that went well. -/
def onDone (r : Reply S α) (f : α → S → S) : Reply S α :=
  match r.result with
  | .ok a => { r with state := f a r.state }
  | .error _ => r

/-- What has failed keeps the state and the notices that it has left behind. -/
theorem andThen_of_error {r : Reply S α} {f : Fault} (h : r.result = .error f)
    (k : S → α → Reply S β) : r.andThen k = ⟨.error f, r.state, r.notices⟩ := by
  unfold andThen; rw [h]

theorem andThen_of_ok {r : Reply S α} {a : α} (h : r.result = .ok a) (k : S → α → Reply S β) :
    r.andThen k =
      ⟨(k r.state a).result, (k r.state a).state, r.notices ++ (k r.state a).notices⟩ := by
  unfold andThen; rw [h]

/-- What holds of the state on the way, and is kept by what is gone on with, holds in the end. -/
theorem andThen_keeps {P : S → Prop} {r : Reply S α} {k : S → α → Reply S β} (hr : P r.state)
    (hk : ∀ s a, P s → P (k s a).state) : P (r.andThen k).state := by
  unfold andThen
  split
  · exact hr
  · exact hk _ _ hr

@[simp] theorem result_map (r : Reply S α) (f : α → β) : (r.map f).result = r.result.map f := rfl

@[simp] theorem state_map (r : Reply S α) (f : α → β) : (r.map f).state = r.state := rfl

/-- The result before a change of the answer that tells answers apart. -/
theorem result_of_map {r : Reply S α} {f : α → β} (hf : Function.Injective f)
    {x : Except Fault α} (h : (r.map f).result = x.map f) : r.result = x := by
  rw [result_map] at h
  cases hr : r.result with
  | error e =>
    rw [hr] at h
    cases x with
    | error e' => exact congrArg Except.error (Except.error.inj h)
    | ok a => cases h
  | ok b =>
    rw [hr] at h
    cases x with
    | error e' => cases h
    | ok a => exact congrArg Except.ok (hf (Except.ok.inj h))

theorem map_map {γ : Type} (r : Reply S α) (f : α → β) (g : β → γ) :
    (r.map f).map g = r.map fun a => g (f a) := by
  unfold map
  cases r.result <;> rfl

@[simp] theorem result_within (r : Reply S α) (put : S → T) : (r.within put).result = r.result :=
  rfl

@[simp] theorem state_within (r : Reply S α) (put : S → T) :
    (r.within put).state = put r.state := rfl

@[simp] theorem result_onDone (r : Reply S α) (f : α → S → S) :
    (r.onDone f).result = r.result := by
  unfold onDone; split <;> rfl

@[simp] theorem notices_onDone (r : Reply S α) (f : α → S → S) :
    (r.onDone f).notices = r.notices := by
  unfold onDone; split <;> rfl

theorem state_onDone_of_ok {r : Reply S α} {a : α} (f : α → S → S) (h : r.result = .ok a) :
    (r.onDone f).state = f a r.state := by
  unfold onDone; rw [h]

theorem state_onDone_of_error {r : Reply S α} {e : Fault} (f : α → S → S)
    (h : r.result = .error e) : (r.onDone f).state = r.state := by
  unfold onDone; rw [h]

/-! ### Refusals, notices and checks -/

variable [Host]

/-- A call that is refused, with the fault that the caller is told of. -/
def fail (s : S) (f : Fault) : Reply S α := ⟨.error f.told, s, []⟩

/-- A call that is done but for its notice. If that has an integer in it that is too large to be
written, the call fails, though the state stays. -/
def announce (s : S) (n : Log.Notice) (a : α) : Reply S α :=
  if n.integers.all Value.isWritable then ⟨.ok a, s, [n]⟩
  else .fail s (.excess .integer)

/-- Go on with the value of a check, or stop where it failed. -/
def check (s : S) (c : Except Fault α) (k : α → Reply S β) : Reply S β :=
  match c with
  | .ok a => k a
  | .error f => fail s f

@[simp] theorem check_ok (s : S) (a : α) (k : α → Reply S β) : check s (.ok a) k = k a := rfl

@[simp] theorem check_error (s : S) (f : Fault) (k : α → Reply S β) :
    check s (.error f) k = fail s f := rfl

@[simp] theorem result_fail (s : S) (f : Fault) :
    (fail s f : Reply S α).result = .error f.told := rfl

@[simp] theorem state_fail (s : S) (f : Fault) : (fail s f : Reply S α).state = s := rfl

@[simp] theorem notices_fail (s : S) (f : Fault) : (fail s f : Reply S α).notices = [] := rfl

@[simp] theorem state_announce (s : S) (n : Log.Notice) (a : α) : (announce s n a).state = s := by
  unfold announce; split <;> rfl

theorem announce_of_isWritable {n : Log.Notice} (h : ∀ k ∈ n.integers, Value.isWritable k = true)
    (s : S) (a : α) : announce s n a = ⟨.ok a, s, [n]⟩ :=
  if_pos (List.all_eq_true.2 h)

theorem announce_of_not_isWritable {n : Log.Notice}
    (h : ¬ ∀ k ∈ n.integers, Value.isWritable k = true) (s : S) (a : α) :
    announce s n a = .fail s (.excess .integer) :=
  if_neg fun hn => h (List.all_eq_true.1 hn)

theorem result_announce_of_not_isWritable {n : Log.Notice}
    (h : ¬ ∀ k ∈ n.integers, Value.isWritable k = true) (s : S) (a : α) :
    (announce s n a).result = .error (.excess .integer) :=
  congrArg result (announce_of_not_isWritable h s a)

theorem check_keeps {P : S → Prop} {s : S} {c : Except Fault α} {k : α → Reply S β} (hs : P s)
    (hk : ∀ a, P (k a).state) : P (check s c k).state := by
  unfold check
  split
  · exact hk _
  · exact hs

theorem map_announce (s : S) (n : Log.Notice) (a : α) (f : α → β) :
    (announce s n a).map f = announce s n (f a) := by
  unfold announce; split <;> rfl

theorem within_announce (s : S) (n : Log.Notice) (a : α) (put : S → T) :
    (announce s n a).within put = announce (put s) n a := by
  unfold announce; split <;> rfl

end Reply

end QuadraticVoting
