import QuadraticVoting.FileTree

/-!
# Opening files

A path that has no double dot in it (`Path.Straight`) is the path of a route to it, so a file that
is opened under it is the one that the host keeps there. Opening a file, with the folders on the way
to it, leaves every file as it was and adds at most an empty one (`FileTree.Adds`); if it goes well,
the file is there (`makeWay_openFile_adds`).
-/

namespace QuadraticVoting

/-! ### Paths without a double dot -/

/-- No name on the path goes back. -/
def Path.Straight (p : Path) : Prop := ∀ name ∈ p.names, name ≠ ".."

namespace Path

theorem straight_step {names : List Text} (h : ∀ n ∈ names, n ≠ "..") (name : Text) :
    ∀ n ∈ step names name, n ≠ ".." := by
  unfold step
  split
  · exact fun n hn => h n (List.mem_of_mem_tail hn)
  · next hne => exact List.forall_mem_cons.2 ⟨hne, h⟩

theorem straight_foldl {start : List Text} (h : ∀ n ∈ start, n ≠ "..") (names : List Text) :
    ∀ n ∈ names.foldl step start, n ≠ ".." := by
  induction names generalizing start with
  | nil => exact h
  | cons name rest ih => exact ih (straight_step h name)

theorem straight_ofText {base : Path} (h : base.Straight) (t : Text) :
    (ofText base t).Straight := by
  intro n hn
  refine straight_foldl (fun m hm => ?_) (Route.ofText t).names n (List.mem_reverse.1 hn)
  unfold Route.start at hm
  split at hm
  · exact absurd hm List.not_mem_nil
  · exact h m (List.mem_reverse.1 hm)

end Path

/-! ### Opening files -/

namespace FileTree

variable {α : Type} {t : FileTree α} {path : Path}

/-- Walking without a double dot comes to where the names say, if it comes anywhere. -/
theorem eq_of_walk {text : Text} {names folder : List Text} (hn : ∀ n ∈ names, n ≠ "..")
    (hne : names ≠ []) (h : t.walk text folder names = .ok path) :
    path = Path.kept ⟨folder.reverse ++ names⟩ := by
  induction names generalizing folder with
  | nil => exact absurd rfl hne
  | cons name rest ih =>
    have hstep : Path.step folder name = name :: folder := if_neg (hn name List.mem_cons_self)
    simp only [walk, hstep] at h
    split at h
    · cases h
    · split at h
      · next hrest =>
        cases h
        rw [hrest, List.reverse_cons]
      · next hrest =>
        split at h
        · have := ih (fun n hm => hn n (List.mem_cons_of_mem _ hm)) hrest h
          rwa [List.reverse_cons, List.append_assoc] at this
        · cases h
        · cases h

theorem eq_kept_of_resolve {q : Path} (hp : path.Straight) (h : t.resolve (.ofPath path) = .ok q) :
    q = path.kept := by
  unfold resolve at h
  split at h
  · cases h
  split at h
  · cases h
  split at h
  · cases h
  by_cases hne : path.names = []
  · obtain ⟨names⟩ := path
    cases hne
    exact (Except.ok.inj h).symm
  · exact eq_of_walk hp hne h

theorem get?_of_placeAt_file {a : α} (h : t.placeAt path = .file a) :
    t.files.get? path = some a := by
  unfold placeAt at h
  split at h
  · cases h
  · split at h
    · next hget => cases h; exact hget
    · cases h

theorem get?_of_placeAt_nothing (h : t.placeAt path = .nothing) : t.files.get? path = none := by
  unfold placeAt at h
  split at h
  · cases h
  · split at h
    · cases h
    · next hget => exact hget

/-- Whatever there was is there as it was, and every file besides is new and holds `a`. -/
structure Adds (a : α) (t u : FileTree α) : Prop where
  base : u.base = t.base
  files : ∀ k, u.files.get? k = t.files.get? k ∨ t.files.get? k = none ∧ u.files.get? k = some a

namespace Adds

variable {a : α} {u v : FileTree α}

theorem refl (a : α) (t : FileTree α) : Adds a t t := ⟨rfl, fun _ => .inl rfl⟩

theorem trans (h : Adds a t u) (h' : Adds a u v) : Adds a t v where
  base := h'.base.trans h.base
  files k := by
    rcases h.files k with h | ⟨hn, hs⟩ <;> rcases h'.files k with h' | ⟨hn', hs'⟩
    · exact .inl (h'.trans h)
    · exact .inr ⟨h.symm.trans hn', hs'⟩
    · exact .inr ⟨hn, h'.trans hs⟩
    · exact absurd (hs.symm.trans hn') nofun

theorem isSome (h : Adds a t u) {k : Path} (hk : (t.files.get? k).isSome) :
    (u.files.get? k).isSome := by
  rcases h.files k with h | ⟨hn, -⟩
  · rwa [h]
  · rw [hn] at hk
    exact absurd hk nofun

theorem getD (h : Adds a t u) (k : Path) : (u.files.get? k).getD a = (t.files.get? k).getD a := by
  rcases h.files k with h | ⟨hn, hs⟩
  · rw [h]
  · rw [hn, hs]
    rfl

end Adds

theorem adds_ensureFolder [Host] (a : α) (t : FileTree α) (r : Route) :
    Adds a t (t.ensureFolder r).state := by
  unfold ensureFolder
  split
  · exact .refl a t
  · unfold makeFolder
    refine Reply.check_keeps (P := Adds a t) (.refl a t) fun q => ?_
    split
    · exact ⟨rfl, fun _ => .inl rfl⟩
    · exact .refl a t
    · exact .refl a t

theorem adds_makeWay [Host] (a : α) (t : FileTree α) (r : Route) :
    Adds a t (t.makeWay r).state := by
  unfold makeWay
  induction r.names.reverse with
  | nil => exact adds_ensureFolder ..
  | cons name before ih =>
    unfold makeWayBack
    dsimp only
    split
    · exact Reply.andThen_keeps ih fun u _ hu => hu.trans (adds_ensureFolder ..)
    · exact adds_ensureFolder ..

/-- A file that is opened is there from then on. -/
theorem openFile_adds [Host] (hp : path.Straight) (a : α) :
    Adds a t (t.openFile path a).state ∧
      ((t.openFile path a).result = .ok () →
        ((t.openFile path a).state.files.get? path.kept).isSome) := by
  unfold openFile
  dsimp only
  cases h : t.resolve (.ofPath path) with
  | error f => exact ⟨.refl a t, nofun⟩
  | ok q =>
    cases eq_kept_of_resolve hp h
    rw [Reply.check_ok]
    cases hat : t.placeAt path.kept with
    | folder => exact ⟨.refl a t, nofun⟩
    | file old => exact ⟨.refl a t, fun _ => congrArg _ (get?_of_placeAt_file hat)⟩
    | nothing =>
      refine ⟨⟨rfl, fun k => ?_⟩, fun _ => congrArg _ (OrdMap.get?_insert_self ..)⟩
      by_cases hk : k = path.kept
      · cases hk
        exact .inr ⟨get?_of_placeAt_nothing hat, OrdMap.get?_insert_self ..⟩
      · exact .inl (OrdMap.get?_insert_of_ne _ _ hk)

theorem base_update (t : FileTree α) (path : Path) (f : α → α) :
    (t.update path f).base = t.base := by
  unfold update
  split <;> rfl

theorem get?_update (t : FileTree α) (path : Path) (f : α → α) (k : Path) :
    (t.update path f).files.get? k =
      if k = path.kept then (t.files.get? k).map f else t.files.get? k := by
  unfold update
  split
  · next a h =>
    rw [OrdMap.get?_insert]
    split
    · next hk => rw [hk, h]; rfl
    · rfl
  · next h =>
    split
    · next hk => rw [hk, h]; rfl
    · rfl

/-- The same with the folders on the way to the file. -/
theorem makeWay_openFile_adds [Host] (hp : path.Straight) (r : Route) (a : α) :
    let q := (t.makeWay r).andThen fun t _ => t.openFile path a
    Adds a t q.state ∧ (q.result = .ok () → (q.state.files.get? path.kept).isSome) := by
  have hway : Adds a t (t.makeWay r).state := adds_makeWay ..
  cases h : (t.makeWay r).result with
  | error f =>
    rw [Reply.andThen_of_error h]
    exact ⟨hway, nofun⟩
  | ok u =>
    rw [Reply.andThen_of_ok h]
    obtain ⟨hopen, hthere⟩ := openFile_adds (t := (t.makeWay r).state) hp a
    exact ⟨hway.trans hopen, hthere⟩

end FileTree

end QuadraticVoting
