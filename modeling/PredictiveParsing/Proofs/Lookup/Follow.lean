import PredictiveParsing.Proofs.Analysis.FollowEquations
import PredictiveParsing.Proofs.Analysis.Reachable
import PredictiveParsing.Proofs.Lookup.First

/-!
# FOLLOW without a lookup that misses

The walk looks up the nonterminals that it meets, and the neighbours and ends of symbols are
changed at the numbers of symbols. What is stored there are numbers again: they are looked up when
the rounds begin, and in each pass of a round. All of them come from bodies and heads, so on a
well-formed grammar no lookup misses.

## Main definitions

* `Grammar.reachable?`, `Grammar.adjacency?`, `Grammar.followSets?`: the steps of the analysis,
  stopped by a lookup that misses
* `Adjacency.Bounded`: the numbers that are stored are those of symbols
* `Grammar.analyze?`: the whole analysis

## Main results

* `Grammar.WellFormed.adjacency?_eq`: making the relations misses nothing
* `Grammar.WellFormed.analyze?_eq`: neither does the whole analysis
-/

namespace PredictiveParsing

/-! ## The walk -/

namespace Grammar

variable (g : Grammar)

/-- The nonterminals in the alternatives of a nonterminal; each has to be one of the grammar. -/
def successors? (nt : Nat) : Option (List Nat) := do
  let next := (← g.bodies? nt).flatMap (·.filterMap Symbol.nonterminal?)
  if next.all (· < g.nonterminals.size) then return next else none

/-- The walk from the nonterminals of a queue on. -/
def walk? : (fuel : Nat) → (visited queue : List Nat) → Option (List Nat)
  | 0, visited, _ => some visited
  | _ + 1, visited, [] => some visited
  | fuel + 1, visited, nt :: queue => do
    let fresh := (← g.successors? nt).filter fun m => !(visited ++ nt :: queue).contains m
    walk? fuel (visited ++ [nt]) (queue ++ fresh.eraseDups)

/-- **The reachable nonterminals**, unless a lookup misses. -/
def reachable? : Option (List Nat) := g.walk? g.nonterminals.size [] [g.start]

namespace WellFormed

variable {g} (wf : g.WellFormed)

include wf

theorem successors?_eq {nt : Nat} (hnt : nt < g.nonterminals.size) :
    g.successors? nt = some (g.successors nt) := by
  have hnext : (g.bodies nt).flatMap (·.filterMap Symbol.nonterminal?) = g.successors nt := by
    rw [bodies, List.flatMap_map]
    rfl
  have hall : (g.successors nt).all (· < g.nonterminals.size) = true := by
    rw [List.all_eq_true]
    intro m hm
    obtain ⟨p, hp, hx⟩ := mem_successors.mp hm
    exact decide_eq_true (wf.hasSymbol_of_mem_body hp hx)
  simp only [successors?, wf.bodies?_eq hnt, Option.bind_eq_bind, Option.bind_some, hnext, hall,
    if_true]
  rfl

/-- **The walk misses nothing**, since it only meets nonterminals of the grammar. -/
theorem walk?_eq (fuel : Nat) {visited queue : List Nat} (h : g.Walking visited queue) :
    g.walk? fuel visited queue = some (g.walk fuel visited queue) := by
  induction fuel generalizing visited queue with
  | zero => rfl
  | succ fuel ih =>
    cases queue with
    | nil => rfl
    | cons nt queue =>
      have hnt : nt < g.nonterminals.size := h.lt nt (by simp)
      rw [walk?, walk, wf.successors?_eq hnt]
      exact ih (h.step wf)

theorem reachable?_eq : g.reachable? = some g.reachable := wf.walk?_eq _ wf.walking_start

end WellFormed

end Grammar

/-! ## Neighbours and ends -/

namespace Adjacency

/-- Lets a symbol follow another. -/
def addFollower? (a : Adjacency) (x y : Nat) : Option Adjacency :=
  if x < a.followers.size then some (a.addFollower x y) else none

/-- Lets a symbol end a nonterminal. -/
def addEnd? (a : Adjacency) (x nt : Nat) : Option Adjacency :=
  if x < a.endsOf.size then some (a.addEnd x nt) else none

/-- Lets a symbol be followed by all that follows another. -/
def passFollowers? (a : Adjacency) (source target : Nat) : Option Adjacency :=
  if source < a.followers.size ∧ target < a.followers.size then some (a.passFollowers source target)
  else none

/-- Lets a symbol end all that another ends. -/
def passEnds? (a : Adjacency) (source target : Nat) : Option Adjacency :=
  if source < a.endsOf.size ∧ target < a.endsOf.size then some (a.passEnds source target)
  else none

/-- Lets a symbol get what the one behind it passes on: its followers, and its ends on demand. -/
def passOn? (a : Adjacency) (unbroken : Bool) (source target : Nat) : Option Adjacency := do
  let a ← a.passFollowers? source target
  if unbroken then a.passEnds? source target else return a

/-- Registers neighbours. -/
def register? (a : Adjacency) (g : Grammar) : List Symbol → Option Adjacency
  | x :: y :: rest => do (← a.addFollower? (g.symbolId x) (g.symbolId y)).register? g (y :: rest)
  | _ => some a

/-- Walks a body from its end. -/
def inherit? (g : Grammar) (nullable : Symbol → Option Bool) (unbroken : Bool) (right : Symbol) :
    List Symbol → Adjacency → Option Adjacency
  | [], a => some a
  | left :: rest, a => do
    if ← nullable right then
      let a ← a.passOn? unbroken (g.symbolId right) (g.symbolId left)
      inherit? g nullable unbroken left rest a
    else inherit? g nullable false left rest a

/-- Records the ends of a production. -/
def updateEnds? (a : Adjacency) (g : Grammar) (nullable : Symbol → Option Bool) (head : Nat)
    (body : List Symbol) : Option Adjacency :=
  match body.reverse with
  | [] => some a
  | last :: rest => do inherit? g nullable true last rest (← a.addEnd? (g.symbolId last) head)

/-- **The numbers that are stored are those of symbols**, and there is a set for each symbol. -/
structure Bounded (g : Grammar) (a : Adjacency) : Prop where
  /-- There is a set for each symbol. -/
  sized : Sized g a
  /-- What follows a symbol is a symbol. -/
  followers : ∀ x, ∀ y ∈ a.followersOf x, y < g.symbolCount
  /-- What is ended by a symbol is a nonterminal. -/
  ends : ∀ x, ∀ nt ∈ a.endedBy x, nt < g.nonterminals.size

namespace Bounded

variable {g : Grammar} {a : Adjacency} {x y : Symbol} {nt : Nat}

theorem empty (g : Grammar) : Bounded g (.empty g.symbolCount) := by
  refine ⟨.empty g, ?_, ?_⟩
  · intro x y hy
    simp at hy
  · intro x nt hnt
    simp at hnt

variable (ha : Bounded g a)

include ha

theorem addFollower (hx : g.HasSymbol x) (hy : g.HasSymbol y) :
    a.addFollower? (g.symbolId x) (g.symbolId y) =
        some (a.addFollower (g.symbolId x) (g.symbolId y)) ∧
      Bounded g (a.addFollower (g.symbolId x) (g.symbolId y)) := by
  refine ⟨if_pos ?_, ha.sized.grows (grows_addFollower a _ _), ?_, ha.ends⟩
  · rw [ha.sized.followers]
    exact Grammar.symbolId_lt hx
  · intro id f hf
    rcases mem_followersOf_addFollower.mp hf with hf | ⟨-, -, rfl⟩
    · exact ha.followers id f hf
    · exact Grammar.symbolId_lt hy

theorem addEnd (hx : g.HasSymbol x) (hnt : nt < g.nonterminals.size) :
    a.addEnd? (g.symbolId x) nt = some (a.addEnd (g.symbolId x) nt) ∧
      Bounded g (a.addEnd (g.symbolId x) nt) := by
  refine ⟨if_pos ?_, ha.sized.grows (grows_addEnd a _ _), ha.followers, ?_⟩
  · rw [ha.sized.ends]
    exact Grammar.symbolId_lt hx
  · intro id m hm
    rcases mem_endedBy_addEnd.mp hm with hm | ⟨-, -, rfl⟩
    · exact ha.ends id m hm
    · exact hnt

theorem passFollowers (hx : g.HasSymbol x) (hy : g.HasSymbol y) :
    a.passFollowers? (g.symbolId y) (g.symbolId x) =
        some (a.passFollowers (g.symbolId y) (g.symbolId x)) ∧
      Bounded g (a.passFollowers (g.symbolId y) (g.symbolId x)) := by
  refine ⟨if_pos ?_, ha.sized.grows (grows_passFollowers a _ _), ?_, ha.ends⟩
  · rw [ha.sized.followers]
    exact ⟨Grammar.symbolId_lt hy, Grammar.symbolId_lt hx⟩
  · intro id f hf
    rcases mem_followersOf_passFollowers.mp hf with hf | ⟨-, -, hf⟩
    · exact ha.followers id f hf
    · exact ha.followers _ f hf

theorem passEnds (hx : g.HasSymbol x) (hy : g.HasSymbol y) :
    a.passEnds? (g.symbolId y) (g.symbolId x) =
        some (a.passEnds (g.symbolId y) (g.symbolId x)) ∧
      Bounded g (a.passEnds (g.symbolId y) (g.symbolId x)) := by
  refine ⟨if_pos ?_, ha.sized.grows (grows_passEnds a _ _), ha.followers, ?_⟩
  · rw [ha.sized.ends]
    exact ⟨Grammar.symbolId_lt hy, Grammar.symbolId_lt hx⟩
  · intro id m hm
    rcases mem_endedBy_passEnds.mp hm with hm | ⟨-, -, hm⟩
    · exact ha.ends id m hm
    · exact ha.ends _ m hm

/-- Followers are passed on in any case, and ends only if everything behind can vanish. -/
theorem passOn (unbroken : Bool) (hx : g.HasSymbol x) (hy : g.HasSymbol y) :
    a.passOn? unbroken (g.symbolId y) (g.symbolId x) =
        some (if unbroken then
          (a.passFollowers (g.symbolId y) (g.symbolId x)).passEnds (g.symbolId y) (g.symbolId x)
          else a.passFollowers (g.symbolId y) (g.symbolId x)) ∧
      Bounded g (if unbroken then
        (a.passFollowers (g.symbolId y) (g.symbolId x)).passEnds (g.symbolId y) (g.symbolId x)
        else a.passFollowers (g.symbolId y) (g.symbolId x)) := by
  obtain ⟨hfollowers, h₁⟩ := ha.passFollowers hx hy
  obtain ⟨hends, h₂⟩ := h₁.passEnds hx hy
  rw [passOn?, hfollowers]
  cases unbroken with
  | false => exact ⟨rfl, h₁⟩
  | true => exact ⟨hends, h₂⟩

theorem register {body : List Symbol} (hbody : ∀ x ∈ body, g.HasSymbol x) :
    a.register? g body = some (a.register g body) ∧ Bounded g (a.register g body) := by
  fun_induction Adjacency.register a g body with
  | case1 a x y rest ih =>
    obtain ⟨hstep, hbounded⟩ := ha.addFollower (hbody x (by simp)) (hbody y (by simp))
    rw [register?, hstep]
    exact ih hbounded fun z hz => hbody z (List.mem_cons_of_mem x hz)
  | case2 a body hshort =>
    refine ⟨?_, ha⟩
    unfold register?
    split
    · rename_i x y rest
      exact absurd rfl (hshort x y rest)
    · rfl

variable {nullable? : Symbol → Option Bool} {nullable : Symbol → Bool}

/-- **A walk from the end of a body** misses nothing if it is known which symbols vanish. -/
theorem inherit (hnullable : ∀ x, g.HasSymbol x → nullable? x = some (nullable x))
    {unbroken : Bool} {right : Symbol} {lefts : List Symbol}
    (hbody : ∀ x ∈ right :: lefts, g.HasSymbol x) :
    inherit? g nullable? unbroken right lefts a =
        some (inherit g nullable unbroken right lefts a) ∧
      Bounded g (inherit g nullable unbroken right lefts a) := by
  fun_induction Adjacency.inherit g nullable unbroken right lefts a with
  | case1 => exact ⟨rfl, ha⟩
  | case2 unbroken right left rest a hright a₁ a₂ ih =>
    have hy := hbody right List.mem_cons_self
    have hx := hbody left (by simp)
    obtain ⟨hpass, hpassed⟩ := ha.passOn unbroken hx hy
    obtain ⟨hrest, hbounded⟩ := ih hpassed fun z hz => hbody z (List.mem_cons_of_mem right hz)
    refine ⟨?_, hbounded⟩
    rw [inherit?, hnullable right hy, hright]
    show ((a.passOn? unbroken _ _).bind fun a => inherit? g nullable? unbroken left rest a) = _
    rw [hpass]
    exact hrest
  | case3 unbroken right left rest a hright ih =>
    have hy := hbody right List.mem_cons_self
    obtain ⟨hrest, hbounded⟩ := ih ha fun z hz => hbody z (List.mem_cons_of_mem right hz)
    refine ⟨?_, hbounded⟩
    rw [inherit?, hnullable right hy, Bool.eq_false_iff.mpr hright]
    exact hrest

theorem updateEnds (hnullable : ∀ x, g.HasSymbol x → nullable? x = some (nullable x))
    (hnt : nt < g.nonterminals.size) {body : List Symbol} (hbody : ∀ x ∈ body, g.HasSymbol x) :
    a.updateEnds? g nullable? nt body = some (a.updateEnds g nullable nt body) ∧
      Bounded g (a.updateEnds g nullable nt body) := by
  have hreverse : ∀ x ∈ body.reverse, g.HasSymbol x := fun x hx => hbody x (List.mem_reverse.mp hx)
  unfold updateEnds? Adjacency.updateEnds
  cases h : body.reverse with
  | nil => exact ⟨rfl, ha⟩
  | cons last rest =>
    rw [h] at hreverse
    obtain ⟨hstep, hbounded⟩ := ha.addEnd (hreverse last List.mem_cons_self) hnt
    simp only [hstep, Option.bind_eq_bind, Option.bind_some]
    exact hbounded.inherit hnullable hreverse

end Bounded

end Adjacency

namespace Grammar

variable (g : Grammar)

/-- **The relations of a grammar**, unless a lookup misses. -/
def adjacency? (nullable : Symbol → Option Bool) : Option Adjacency := do
  let reachable ← g.reachable?
  let productions ← reachable.mapM g.alternatives?
  let neighbours ← productions.flatten.foldlM (fun a p => do a.register? g (← g.body? p))
    (Adjacency.empty g.symbolCount)
  reachable.foldlM (fun a nt => do
    (← g.alternatives? nt).foldlM (fun a p => do a.updateEnds? g nullable nt (← g.body? p)) a)
    neighbours

variable {g}

/-- **Making the relations misses nothing**, and only numbers of symbols are stored in them. -/
theorem WellFormed.adjacency?_eq (wf : g.WellFormed) {nullable? : Symbol → Option Bool}
    {nullable : Symbol → Bool}
    (hnullable : ∀ x, g.HasSymbol x → nullable? x = some (nullable x)) :
    g.adjacency? nullable? = some (g.adjacency nullable) ∧
      Adjacency.Bounded g (g.adjacency nullable) := by
  have hbody {nt p : Nat} (hp : p ∈ g.alternatives nt) : g.body? p = some (g.body p) :=
    body?_eq (wf.alternative_lt hp)
  have halternatives {nt : Nat} (hnt : nt ∈ g.reachable) :
      g.alternatives? nt = some (g.alternatives nt) :=
    alternatives?_eq (wf.lt_of_mem_reachable hnt)
  have hproductions : g.reachable.mapM g.alternatives? = some (g.reachable.map g.alternatives) :=
    mapM_eq_some_map fun nt hnt => halternatives hnt
  have hregister (a : Adjacency) (ha : a.Bounded g) (p : Nat) (hp : p ∈ g.reachableProductions) :
      (do a.register? g (← g.body? p)) = some (a.register g (g.body p)) ∧
        (a.register g (g.body p)).Bounded g := by
    obtain ⟨nt, -, hp⟩ := List.mem_flatMap.mp hp
    rw [hbody hp]
    exact ha.register fun x hx => wf.hasSymbol_of_mem_body hp hx
  obtain ⟨hneighbours, hbounded⟩ :=
    foldlM_eq_some_foldl (Adjacency.Bounded g) hregister (Adjacency.Bounded.empty g)
  have hupdate (a : Adjacency) (ha : a.Bounded g) (nt : Nat) (hnt : nt ∈ g.reachable) :
      (do
          let listed ← g.alternatives? nt
          listed.foldlM (fun a p => do a.updateEnds? g nullable? nt (← g.body? p)) a) =
        some ((g.alternatives nt).foldl (fun a p => a.updateEnds g nullable nt (g.body p)) a) ∧
      ((g.alternatives nt).foldl
        (fun a p => a.updateEnds g nullable nt (g.body p)) a).Bounded g := by
    rw [halternatives hnt]
    refine foldlM_eq_some_foldl (Adjacency.Bounded g) (fun a ha p hp => ?_) ha
    rw [hbody hp]
    exact ha.updateEnds hnullable (wf.lt_of_mem_reachable hnt) fun x hx =>
      wf.hasSymbol_of_mem_body hp hx
  obtain ⟨hends, hbounded⟩ := foldlM_eq_some_foldl (Adjacency.Bounded g) hupdate hbounded
  refine ⟨?_, hbounded⟩
  simp only [adjacency?, wf.reachable?_eq, hproductions, Option.bind_eq_bind, Option.bind_some]
  rw [← List.flatMap_def]
  exact (congrArg (Option.bind · _) hneighbours).trans hends

end Grammar

/-! ## Rounds -/

namespace FollowTable

/-- Passes the set of one symbol on to another. -/
def pass? (table : FollowTable) (source target : Nat) : Option (FollowTable × Bool) := do
  let (s, grew) := (← table[target]?).absorb (← table[source]?)
  return (table.setIfInBounds target s, grew)

/-- One round. -/
def sweep? (pairs : List (Nat × Nat)) (table : FollowTable) : Option (FollowTable × Bool) :=
  pairs.foldlM (fun (table, changed) (source, target) => do
    let (table, grew) ← table.pass? source target
    return (table, changed || grew)) (table, false)

/-- Rounds until nothing changes. -/
def settle? (pairs : List (Nat × Nat)) : (fuel : Nat) → FollowTable → Option (FollowTable × Nat)
  | 0, table => some (table, 0)
  | fuel + 1, table => do
    let (table, changed) ← table.sweep? pairs
    if changed then
      let (table, rounds) ← settle? pairs fuel table
      return (table, rounds + 1)
    else return (table, 1)

end FollowTable

namespace Grammar

variable (g : Grammar)

/-- The set of a symbol before anything is passed on. -/
def startSet? (adjacency : Adjacency) (first : Symbol → Option LookaheadSet) (x : Nat) :
    Option LookaheadSet := do
  let start ← match g.symbolOfId x with
    | .nonterminal nt =>
      g.nonterminals[nt]?.map fun n => if n.isStart then g.emptySet.withEnd else g.emptySet
    | .terminal _ => some g.emptySet
  let sets ← (← adjacency.followers[x]?).toList.mapM fun f => first (g.symbolOfId f)
  return sets.foldl (fun s t => s.union t.withoutEpsilon) start

/-- The sets before anything is passed on. -/
def followStart? (adjacency : Adjacency) (first : Symbol → Option LookaheadSet) :
    Option FollowTable :=
  (Array.range g.symbolCount).mapM (g.startSet? adjacency first)

/-- The pairs of symbols by which a symbol receives sets. -/
def inheritancesOf? (adjacency : Adjacency) (x : Nat) : Option (List (Nat × Nat)) := do
  return (← adjacency.endsOf[x]?).toList.filterMap fun nt =>
    let source := g.symbolId (.nonterminal nt)
    if source == x then none else some (source, x)

/-- The pairs of symbols between which sets are passed on. -/
def inheritances? (adjacency : Adjacency) : Option (List (Nat × Nat)) := do
  return (← (List.range g.symbolCount).mapM (g.inheritancesOf? adjacency)).flatten

/-- **What can come after** each symbol, unless a lookup misses. -/
def followSets? (adjacency : Adjacency) (first : Symbol → Option LookaheadSet) :
    Option (FollowTable × Nat) := do
  let pairs ← g.inheritances? adjacency
  let table ← g.followStart? adjacency first
  table.settle? pairs g.roundBound

/-- **The analysis of a grammar**, unless a lookup misses. -/
def analyze? : Option (Except LeftRecursion Analysis) :=
  proceed g.firstSets? fun first => do
    let adjacency ← g.adjacency? first.nullable?
    let (followTable, rounds) ← g.followSets? adjacency first.symbol?
    return .ok { first, reachable := ← g.reachable?, adjacency, followTable, rounds }

variable {g} {adjacency : Adjacency} {first? : Symbol → Option LookaheadSet}
  {first : Symbol → LookaheadSet} {pairs : List (Nat × Nat)} {table : FollowTable}

/-- A number below that of all symbols is the number of a symbol. -/
theorem hasSymbol_symbolOfId {id : Nat} (h : id < g.symbolCount) :
    g.HasSymbol (g.symbolOfId id) := by
  unfold symbolOfId
  split
  · assumption
  · rename_i hid
    rw [symbolCount] at h
    show id - g.terminals.size < g.nonterminals.size
    omega

theorem followers?_eq (h : Adjacency.Bounded g adjacency) {x : Nat}
    (hx : x < g.symbolCount) : adjacency.followers[x]? = some (adjacency.followersOf x) := by
  have hlt : x < adjacency.followers.size := h.sized.followers ▸ hx
  simp [Adjacency.followersOf, hlt]

theorem followStart?_eq (h : Adjacency.Bounded g adjacency)
    (hfirst : ∀ x, g.HasSymbol x → first? x = some (first x)) :
    g.followStart? adjacency first? = some (g.followStart adjacency first) := by
  refine array_mapM_eq_some_map fun x hx => ?_
  replace hx : x < g.symbolCount := by simpa using hx
  have hsets : (adjacency.followersOf x).toList.mapM (fun f => first? (g.symbolOfId f)) =
      some ((adjacency.followersOf x).toList.map fun f => first (g.symbolOfId f)) :=
    mapM_eq_some_map fun f hf => hfirst _ (hasSymbol_symbolOfId (h.followers x f hf))
  have hsymbol := hasSymbol_symbolOfId hx
  unfold startSet?
  cases hid : g.symbolOfId x with
  | terminal t =>
    simp only [Option.bind_eq_bind, Option.bind_some, followers?_eq h hx, hsets, List.foldl_map]
    rfl
  | nonterminal nt =>
    have hnt : nt < g.nonterminals.size := by rwa [hid] at hsymbol
    have hstart : g.isStart nt = g.nonterminals[nt].isStart := by simp [isStart, hnt]
    simp only [Array.getElem?_eq_getElem hnt, Option.map_some, Option.bind_eq_bind,
      Option.bind_some, followers?_eq h hx, hsets, List.foldl_map, hstart]
    rfl

theorem inheritances?_eq (h : Adjacency.Bounded g adjacency) :
    g.inheritances? adjacency = some (g.inheritances adjacency) := by
  have hends {x : Nat} (hx : x ∈ List.range g.symbolCount) :
      adjacency.endsOf[x]? = some (adjacency.endedBy x) := by
    have hlt : x < adjacency.endsOf.size := h.sized.ends ▸ List.mem_range.mp hx
    simp [Adjacency.endedBy, hlt]
  have hpairs : (List.range g.symbolCount).mapM (g.inheritancesOf? adjacency) =
      some ((List.range g.symbolCount).map fun x => (adjacency.endedBy x).toList.filterMap fun nt =>
        let source := g.symbolId (.nonterminal nt)
        if source == x then none else some (source, x)) := by
    refine mapM_eq_some_map fun x hx => ?_
    rw [inheritancesOf?, hends hx]
    rfl
  rw [inheritances?, hpairs, inheritances, List.flatMap_def]
  rfl

/-- Sets are passed on between symbols of the grammar. -/
theorem inheritances_lt (h : Adjacency.Bounded g adjacency) {pair : Nat × Nat}
    (hpair : pair ∈ g.inheritances adjacency) :
    pair.1 < g.symbolCount ∧ pair.2 < g.symbolCount := by
  obtain ⟨hx, -, nt, hnt, hsource⟩ := mem_inheritances.mp hpair
  refine ⟨?_, hx⟩
  rw [hsource]
  exact symbolId_lt (x := .nonterminal nt) (h.ends _ nt hnt)

/-- Passing a set on misses nothing, and there is still a set for each symbol. -/
theorem pass?_eq {source target : Nat} (hsource : source < table.size)
    (htarget : target < table.size) :
    table.pass? source target = some (table.pass g.terminals.size source target) ∧
      (table.pass g.terminals.size source target).1.size = table.size := by
  refine ⟨?_, Array.size_setIfInBounds⟩
  simp [FollowTable.pass?, FollowTable.pass, FollowTable.get, hsource, htarget]

/-- **A round misses nothing.** -/
theorem sweep?_eq (hpairs : ∀ pair ∈ pairs, pair.1 < table.size ∧ pair.2 < table.size) :
    table.sweep? pairs = some (g.sweep pairs table) ∧
      (g.sweep pairs table).1.size = table.size := by
  refine foldlM_eq_some_foldl (fun state : FollowTable × Bool => state.1.size = table.size) ?_ rfl
  rintro ⟨now, changed⟩ hsize pair hpair
  replace hsize : now.size = table.size := hsize
  rw [← hsize] at hpairs
  obtain ⟨hpass, hnow⟩ := pass?_eq (g := g) (hpairs pair hpair).1 (hpairs pair hpair).2
  refine ⟨?_, hnow.trans hsize⟩
  simp only [hpass, Option.bind_eq_bind, Option.bind_some]
  rfl

/-- **No round misses anything.** -/
theorem settle?_eq (fuel : Nat)
    (hpairs : ∀ pair ∈ pairs, pair.1 < table.size ∧ pair.2 < table.size) :
    table.settle? pairs fuel = some (g.settle pairs fuel table) := by
  induction fuel generalizing table with
  | zero => rfl
  | succ fuel ih =>
    obtain ⟨hsweep, hsize⟩ := sweep?_eq (g := g) hpairs
    rw [FollowTable.settle?, settle, hsweep]
    rw [← hsize] at hpairs
    cases hchanged : (g.sweep pairs table).2 with
    | false => simp [hchanged]
    | true => simp [hchanged, ih hpairs]

variable (wf : g.WellFormed)

include wf

/-- **The analysis of a grammar misses nothing.** -/
theorem WellFormed.analyze?_eq : g.analyze? = some g.analyze := by
  rw [analyze?, analyze, wf.firstSets?_eq]
  refine proceed_some fun f hf => ?_
  obtain ⟨hadjacency, hbounded⟩ := wf.adjacency?_eq fun x hx => FirstSets.nullable?_eq hf hx
  have hstart := followStart?_eq hbounded fun x hx => FirstSets.symbol?_eq hf hx
  have hsettle : (g.followStart (g.adjacency f.nullable) f.symbol).settle?
      (g.inheritances (g.adjacency f.nullable)) g.roundBound =
      some (g.settle (g.inheritances (g.adjacency f.nullable)) g.roundBound
        (g.followStart (g.adjacency f.nullable) f.symbol)) := by
    refine settle?_eq g.roundBound fun pair hpair => ?_
    rw [followStart, Array.size_map, Array.size_range]
    exact inheritances_lt hbounded hpair
  have hfollow : g.followSets? (g.adjacency f.nullable) f.symbol? =
      some (g.followSets (g.adjacency f.nullable) f.symbol) := by
    simp only [followSets?, inheritances?_eq hbounded, hstart, Option.bind_eq_bind,
      Option.bind_some, hsettle, followSets]
  simp only [hadjacency, hfollow, wf.reachable?_eq, Option.bind_eq_bind, Option.bind_some]
  rfl

end Grammar

end PredictiveParsing
