import PredictiveParsing.Analysis.Adjacency
import PredictiveParsing.Proofs.Grammar.WellFormed

/-!
# Neighbours and ends are complete

While the relations are made their sets only grow. After a body has been walked from its end,
each of its symbols is related to all that comes after it up to the first symbol that cannot
vanish, and to the head if all of it can vanish. Nothing of that is lost later, so in the end
it holds for every reachable production.

## Main definitions

* `Adjacency.Grows`: the relations have gained members
* `Adjacency.Connects`, `Adjacency.Connected`: a symbol, and all symbols of a body, are related to
  what comes after them

## Main results

* `Adjacency.updateEnds_connected`: walking a body connects it
* `Grammar.WellFormed.adjacency_connected`: all reachable productions are connected
-/

namespace PredictiveParsing

namespace Adjacency

variable {a b c : Adjacency} {g : Grammar} {nullable : Symbol → Bool}

/-- **The relations have gained members.** -/
structure Grows (a b : Adjacency) : Prop where
  /-- No follower is lost. -/
  followers : ∀ x y, y ∈ a.followersOf x → y ∈ b.followersOf x
  /-- No end is lost. -/
  ends : ∀ x nt, nt ∈ a.endedBy x → nt ∈ b.endedBy x
  /-- The number of symbols stays the same. -/
  size_followers : b.followers.size = a.followers.size
  /-- So it does for the ends. -/
  size_ends : b.endsOf.size = a.endsOf.size

theorem Grows.refl (a : Adjacency) : a.Grows a := ⟨fun _ _ h => h, fun _ _ h => h, rfl, rfl⟩

theorem Grows.trans (h : a.Grows b) (h' : b.Grows c) : a.Grows c where
  followers x y hy := h'.followers x y (h.followers x y hy)
  ends x nt hnt := h'.ends x nt (h.ends x nt hnt)
  size_followers := h'.size_followers.trans h.size_followers
  size_ends := h'.size_ends.trans h.size_ends

/-! ## The members of each step -/

/-- In the beginning nothing follows a symbol. -/
@[simp]
theorem followersOf_empty (count x : Nat) : (empty count).followersOf x = ∅ := by
  rw [followersOf, empty, Array.getElem?_replicate]
  split <;> rfl

/-- Nor does a symbol end anything. -/
@[simp]
theorem endedBy_empty (count x : Nat) : (empty count).endedBy x = ∅ := by
  rw [endedBy, empty, Array.getElem?_replicate]
  split <;> rfl

/-- Only one set of a table is changed at a time. If the change adds members, the others stay. -/
theorem mem_modify_of_adds {table : Array IndexSet} {x y z : Nat} {f : IndexSet → IndexSet}
    {added : Prop} (hf : ∀ s, z ∈ f s ↔ z ∈ s ∨ added) :
    z ∈ (table.modify x f)[y]?.getD ∅ ↔
      z ∈ table[y]?.getD ∅ ∨ y = x ∧ x < table.size ∧ added := by
  rw [Array.getElem?_modify]
  by_cases hyx : y = x
  · subst hyx
    by_cases hlt : y < table.size
    · simp [hlt, hf]
    · simp [hlt]
  · simp [hyx, Ne.symm hyx]

theorem mem_followersOf_addFollower {x y z w : Nat} :
    z ∈ (a.addFollower x y).followersOf w ↔
      z ∈ a.followersOf w ∨ w = x ∧ x < a.followers.size ∧ z = y :=
  mem_modify_of_adds fun _ => by rw [IndexSet.mem_insert, or_comm]

theorem mem_endedBy_addEnd {x nt m w : Nat} :
    m ∈ (a.addEnd x nt).endedBy w ↔ m ∈ a.endedBy w ∨ w = x ∧ x < a.endsOf.size ∧ m = nt :=
  mem_modify_of_adds fun _ => by rw [IndexSet.mem_insert, or_comm]

theorem mem_followersOf_passFollowers {source target z w : Nat} :
    z ∈ (a.passFollowers source target).followersOf w ↔ z ∈ a.followersOf w ∨
      w = target ∧ target < a.followers.size ∧ z ∈ a.followersOf source :=
  mem_modify_of_adds fun _ => IndexSet.mem_union

theorem mem_endedBy_passEnds {source target m w : Nat} :
    m ∈ (a.passEnds source target).endedBy w ↔ m ∈ a.endedBy w ∨
      w = target ∧ target < a.endsOf.size ∧ m ∈ a.endedBy source :=
  mem_modify_of_adds fun _ => IndexSet.mem_union

theorem grows_addFollower (a : Adjacency) (x y : Nat) : a.Grows (a.addFollower x y) where
  followers _ _ h := mem_followersOf_addFollower.mpr (.inl h)
  ends _ _ h := h
  size_followers := by simp [addFollower]
  size_ends := rfl

theorem grows_addEnd (a : Adjacency) (x nt : Nat) : a.Grows (a.addEnd x nt) where
  followers _ _ h := h
  ends _ _ h := mem_endedBy_addEnd.mpr (.inl h)
  size_followers := rfl
  size_ends := by simp [addEnd]

theorem grows_passFollowers (a : Adjacency) (source target : Nat) :
    a.Grows (a.passFollowers source target) where
  followers _ _ h := mem_followersOf_passFollowers.mpr (.inl h)
  ends _ _ h := h
  size_followers := by simp [passFollowers]
  size_ends := rfl

theorem grows_passEnds (a : Adjacency) (source target : Nat) :
    a.Grows (a.passEnds source target) where
  followers _ _ h := h
  ends _ _ h := mem_endedBy_passEnds.mpr (.inl h)
  size_followers := rfl
  size_ends := by simp [passEnds]

/-- What the right one of two symbols passes on: its followers, and its ends on demand. -/
theorem grows_pass (a : Adjacency) (unbroken : Bool) (source target : Nat) :
    (a.passFollowers source target).Grows
      (if unbroken then (a.passFollowers source target).passEnds source target
        else a.passFollowers source target) := by
  split
  · exact grows_passEnds _ _ _
  · exact .refl _

theorem grows_register (g : Grammar) (body : List Symbol) (a : Adjacency) :
    a.Grows (a.register g body) := by
  fun_induction register with
  | case1 a x y rest ih => exact (grows_addFollower a _ _).trans ih
  | case2 => exact .refl _

theorem grows_inherit (g : Grammar) (nullable : Symbol → Bool) (unbroken : Bool) (right : Symbol)
    (lefts : List Symbol) (a : Adjacency) :
    a.Grows (inherit g nullable unbroken right lefts a) := by
  fun_induction inherit g nullable unbroken right lefts a with
  | case1 => exact .refl _
  | case2 unbroken right left rest a hright a₁ a₂ ih =>
    have h₁ : a.Grows a₁ := grows_passFollowers a _ _
    have h₂ : a₁.Grows a₂ := grows_pass a unbroken _ _
    exact (h₁.trans h₂).trans ih
  | case3 _ _ _ _ _ _ ih => exact ih

theorem grows_updateEnds (g : Grammar) (nullable : Symbol → Bool) (head : Nat)
    (body : List Symbol) (a : Adjacency) : a.Grows (a.updateEnds g nullable head body) := by
  unfold updateEnds
  split
  · exact .refl a
  · exact (grows_addEnd a _ _).trans (grows_inherit g nullable true _ _ _)

theorem grows_foldl {β : Type} {f : Adjacency → β → Adjacency}
    (hf : ∀ (a : Adjacency) x, a.Grows (f a x)) (l : List β) (a : Adjacency) :
    a.Grows (l.foldl f a) := by
  induction l generalizing a with
  | nil => exact .refl a
  | cons y l ih => exact (hf a y).trans (ih (f a y))

/-- A member of a list has its turn in a fold whose steps only add to the relations. -/
theorem exists_foldl {β : Type} {f : Adjacency → β → Adjacency}
    (hf : ∀ (a : Adjacency) x, a.Grows (f a x)) {l : List β} {x : β} (hx : x ∈ l)
    (a : Adjacency) :
    ∃ b, a.Grows b ∧ (f b x).Grows (l.foldl f a) := by
  induction l generalizing a with
  | nil => exact absurd hx List.not_mem_nil
  | cons y l ih =>
    rcases List.mem_cons.mp hx with rfl | hx
    · exact ⟨a, .refl a, grows_foldl hf l (f a x)⟩
    · obtain ⟨b, hab, hb⟩ := ih hx (f a y)
      exact ⟨b, (hf a y).trans hab, hb⟩

/-! ## Bodies that are connected -/

/-- There is a set for each symbol of a grammar. -/
structure Sized (g : Grammar) (a : Adjacency) : Prop where
  /-- For its followers. -/
  followers : a.followers.size = g.symbolCount
  /-- For what it ends. -/
  ends : a.endsOf.size = g.symbolCount

/-- The neighbours in a body are registered. -/
def Registered (g : Grammar) (a : Adjacency) (body : List Symbol) : Prop :=
  ∀ before x y after, body = before ++ x :: y :: after →
    g.symbolId y ∈ a.followersOf (g.symbolId x)

/-- **A symbol is related to what comes after it** in the body of a nonterminal. -/
structure Connects (g : Grammar) (nullable : Symbol → Bool) (head : Nat) (a : Adjacency)
    (x : Symbol) (rest : List Symbol) : Prop where
  /-- It is followed by each symbol behind symbols that can vanish. -/
  followers : ∀ between y after, rest = between ++ y :: after →
    (∀ z ∈ between, nullable z = true) → g.symbolId y ∈ a.followersOf (g.symbolId x)
  /-- It ends the nonterminal if all that comes after it can vanish. -/
  ends : (∀ z ∈ rest, nullable z = true) → head ∈ a.endedBy (g.symbolId x)

/-- **All symbols of a body are related to what comes after them.** -/
def Connected (g : Grammar) (nullable : Symbol → Bool) (head : Nat) (a : Adjacency)
    (body : List Symbol) : Prop :=
  ∀ before x after, body = before ++ x :: after → Connects g nullable head a x after

theorem Sized.empty (g : Grammar) : Sized g (.empty g.symbolCount) :=
  ⟨Array.size_replicate, Array.size_replicate⟩

theorem Sized.grows (h : a.Grows b) (ha : Sized g a) : Sized g b :=
  ⟨h.size_followers.trans ha.followers, h.size_ends.trans ha.ends⟩

theorem Registered.grows {body : List Symbol} (h : a.Grows b) (hr : Registered g a body) :
    Registered g b body :=
  fun before x y after heq => h.followers _ _ (hr before x y after heq)

theorem Connects.grows {head : Nat} {x : Symbol} {rest : List Symbol} (h : a.Grows b)
    (hx : Connects g nullable head a x rest) : Connects g nullable head b x rest where
  followers between y after hrest hnull :=
    h.followers _ _ (hx.followers between y after hrest hnull)
  ends hnull := h.ends _ _ (hx.ends hnull)

theorem Connected.grows {head : Nat} {body : List Symbol} (h : a.Grows b)
    (hbody : Connected g nullable head a body) : Connected g nullable head b body :=
  fun before x after heq => (hbody before x after heq).grows h

theorem Connected.cons {head : Nat} {x : Symbol} {rest : List Symbol}
    (hx : Connects g nullable head a x rest) (hrest : Connected g nullable head a rest) :
    Connected g nullable head a (x :: rest) := by
  rintro (_ | ⟨y, before⟩) z after heq
  · obtain ⟨rfl, rfl⟩ := List.cons.inj heq
    exact hx
  · exact hrest before z after (List.cons.inj heq).2

/-- Registering the neighbours in a body registers them all. -/
theorem register_registered {body : List Symbol} (ha : Sized g a)
    (hbody : ∀ x ∈ body, g.HasSymbol x) : Registered g (a.register g body) body := by
  fun_induction register a g body with
  | case1 a x y rest ih =>
    have hgrows := grows_addFollower a (g.symbolId x) (g.symbolId y)
    rintro (_ | ⟨x', before⟩) z w after heq
    · obtain ⟨rfl, rfl, rfl⟩ : x = z ∧ y = w ∧ rest = after := by simpa using heq
      refine (grows_register g _ _).followers _ _ (mem_followersOf_addFollower.mpr (.inr ?_))
      exact ⟨rfl, ha.followers ▸ Grammar.symbolId_lt (hbody x List.mem_cons_self), rfl⟩
    · exact ih (ha.grows hgrows) (fun x hx => hbody x (List.mem_cons_of_mem _ hx)) before z w after
        (List.cons.inj heq).2
  | case2 a body hshort =>
    rintro before x y after rfl
    cases before with
    | nil => exact absurd rfl (hshort x y after)
    | cons z before =>
      cases before with
      | nil => exact absurd rfl (hshort z x (y :: after))
      | cons w before => exact absurd rfl (hshort z w (before ++ x :: y :: after))

/-- **Walking a body from its end connects it.** The symbols behind `right` are connected; what is
passed on connects the symbol before `right`, too. -/
theorem inherit_connected {head : Nat} {unbroken : Bool} {right : Symbol}
    {lefts suffix : List Symbol} (ha : Sized g a)
    (hbody : ∀ x ∈ lefts, g.HasSymbol x)
    (hregistered : Registered g a (lefts.reverse ++ right :: suffix))
    (hunbroken : (∀ z ∈ suffix, nullable z = true) → unbroken = true)
    (hconnected : Connected g nullable head a (right :: suffix)) :
    Connected g nullable head (inherit g nullable unbroken right lefts a)
      (lefts.reverse ++ right :: suffix) := by
  -- Induction along the walk: the suffix that is connected grows by one symbol in each step.
  fun_induction inherit g nullable unbroken right lefts a generalizing suffix with
  | case1 => exact hconnected
  | case2 unbroken right left rest a hright a₁ a₂ =>
    rename_i ih
    have h₁ : a.Grows a₁ := grows_passFollowers a _ _
    have h₂ : a₁.Grows a₂ := grows_pass a unbroken _ _
    have hgrows := h₁.trans h₂
    have hleft := Grammar.symbolId_lt (hbody left List.mem_cons_self)
    have hat := hconnected [] right suffix rfl
    simp only [List.reverse_cons, List.append_assoc, List.singleton_append] at hregistered ⊢
    refine ih (ha.grows hgrows) (fun x hx => hbody x (List.mem_cons_of_mem _ hx))
      (hregistered.grows hgrows) (fun hnull => hunbroken fun z hz =>
        hnull z (List.mem_cons_of_mem _ hz)) (.cons ⟨?_, ?_⟩ (hconnected.grows hgrows))
    · rintro (_ | ⟨z, between⟩) y after heq hnull
      · obtain ⟨rfl, rfl⟩ := List.cons.inj heq
        exact hgrows.followers _ _ (hregistered rest.reverse left right suffix rfl)
      · obtain ⟨rfl, rfl⟩ := List.cons.inj heq
        refine h₂.followers _ _ (mem_followersOf_passFollowers.mpr (.inr ⟨rfl, ?_, ?_⟩))
        · exact ha.followers ▸ hleft
        · exact hat.followers between y after rfl fun w hw =>
            hnull w (List.mem_cons_of_mem _ hw)
    · -- the flag tells that everything behind `right` can vanish, so the head is passed on, too
      intro hnull
      have hsuffix : ∀ z ∈ suffix, nullable z = true := by
        intro z hz
        exact hnull z (List.mem_cons_of_mem _ hz)
      simp only [a₂, hunbroken hsuffix, if_true]
      refine mem_endedBy_passEnds.mpr (.inr ⟨rfl, ?_, h₁.ends _ _ (hat.ends hsuffix)⟩)
      exact (ha.grows h₁).ends ▸ hleft
  | case3 unbroken right left rest a hright ih =>
    simp only [List.reverse_cons, List.append_assoc, List.singleton_append] at hregistered ⊢
    refine ih ha (fun x hx => hbody x (List.mem_cons_of_mem _ hx)) hregistered
      (fun hnull => absurd (hnull right List.mem_cons_self) hright) (.cons ⟨?_, ?_⟩ hconnected)
    · rintro (_ | ⟨z, between⟩) y after heq hnull
      · obtain ⟨rfl, rfl⟩ := List.cons.inj heq
        exact hregistered rest.reverse left right suffix rfl
      · obtain ⟨rfl, -⟩ := List.cons.inj heq
        exact absurd (hnull right List.mem_cons_self) hright
    · exact fun hnull => absurd (hnull right List.mem_cons_self) hright

/-- **Recording the ends of a production connects its body**, if its neighbours are registered. -/
theorem updateEnds_connected (nullable : Symbol → Bool) (head : Nat) {body : List Symbol}
    (ha : Sized g a)
    (hbody : ∀ x ∈ body, g.HasSymbol x) (hregistered : Registered g a body) :
    Connected g nullable head (a.updateEnds g nullable head body) body := by
  unfold updateEnds
  split
  · rename_i hreverse
    obtain rfl := List.reverse_eq_nil_iff.mp hreverse
    rintro before x after heq
    simp at heq
  · rename_i last rest hreverse
    obtain rfl : body = rest.reverse ++ [last] := by
      simpa using congrArg List.reverse hreverse
    have hgrows := grows_addEnd a (g.symbolId last) head
    have hlast := Grammar.symbolId_lt (hbody last (by simp))
    refine inherit_connected (ha.grows hgrows) (fun x hx => hbody x (by simp [hx]))
      (hregistered.grows hgrows) (fun _ => rfl) (.cons ⟨?_, ?_⟩ ?_)
    · rintro between y after heq
      simp at heq
    · exact fun _ => mem_endedBy_addEnd.mpr (.inr ⟨rfl, ha.ends ▸ hlast, rfl⟩)
    · rintro before x after heq
      simp at heq

end Adjacency

/-! ## The relations of a grammar -/

/-- **The reachable productions are connected** by the relations of the grammar. -/
theorem Grammar.WellFormed.adjacency_connected {g : Grammar} (wf : g.WellFormed)
    (nullable : Symbol → Bool) {nt p : Nat} (hnt : nt ∈ g.reachable)
    (hp : p ∈ g.alternatives nt) :
    Adjacency.Connected g nullable nt (g.adjacency nullable) (g.body p) := by
  have hsized := Adjacency.Sized.empty g
  have hbody : ∀ x ∈ g.body p, g.HasSymbol x := fun x hx => wf.hasSymbol_of_mem_body hp hx
  have hregister (a : Adjacency) (p : Nat) : a.Grows (a.register g (g.body p)) :=
    a.grows_register g (g.body p)
  have hupdate (nt : Nat) (a : Adjacency) (p : Nat) :
      a.Grows (a.updateEnds g nullable nt (g.body p)) :=
    a.grows_updateEnds g nullable nt (g.body p)
  have hmem : p ∈ g.reachableProductions := List.mem_flatMap.mpr ⟨nt, hnt, hp⟩
  obtain ⟨a₁, h₁, h₁'⟩ := Adjacency.exists_foldl hregister hmem (.empty g.symbolCount)
  have hregistered := (Adjacency.register_registered (hsized.grows h₁) hbody).grows h₁'
  have hsized' := (hsized.grows (h₁.trans (hregister a₁ p))).grows h₁'
  obtain ⟨a₂, h₂, h₂'⟩ := Adjacency.exists_foldl
    (fun a nt => Adjacency.grows_foldl (hupdate nt) (g.alternatives nt) a) hnt
    (g.reachableProductions.foldl (fun a p => a.register g (g.body p)) (.empty g.symbolCount))
  obtain ⟨a₃, h₃, h₃'⟩ := Adjacency.exists_foldl (hupdate nt) hp a₂
  have hconnected := Adjacency.updateEnds_connected nullable nt
    (hsized'.grows (h₂.trans h₃)) hbody (hregistered.grows (h₂.trans h₃))
  exact hconnected.grows (h₃'.trans h₂')

end PredictiveParsing
