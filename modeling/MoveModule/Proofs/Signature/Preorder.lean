import MoveModule.Proofs.Signature

/-! The order in which the tokens of a type are visited. The tokens that wait are kept on a stack,
and a token that is visited puts its parts there, so that nothing recurs into a type. The stack
runs empty after one step for each token. The tokens are then visited in the order of their places:
each in front of its parts, the parts from left to right, and none of them twice. -/
namespace MoveModule.SignatureToken

theorem sizeAll_eq_zero {tokens : List SignatureToken} : sizeAll tokens = 0 ↔ tokens = [] := by
  cases tokens with
  | nil => simp [sizeAll]
  | cons token rest => simp [sizeAll, size_eq token]

/-- A part is smaller than what it is a part of, which is what inductions on tokens go by. -/
theorem size_lt_of_mem_children {token child : SignatureToken} (h : child ∈ token.children) :
    child.size < token.size := by
  obtain ⟨before, after, hChildren⟩ := List.append_of_mem h
  rw [size_eq token, hChildren, sizeAll_append, sizeAll]
  omega

/-- What passes from the parts of a token to the token holds of every token. -/
theorem induction_children {motive : SignatureToken → Prop}
    (parts : ∀ token, (∀ child ∈ token.children, motive child) → motive token)
    (token : SignatureToken) : motive token := by
  induction hSize : token.size using Nat.strongRecOn generalizing token with
  | ind size ih =>
      subst hSize
      exact parts token fun child hChild => ih child.size (size_lt_of_mem_children hChild) child rfl

theorem length_flatMap_nodes {tokens : List SignatureToken}
    (h : ∀ token ∈ tokens, token.nodes.length = token.size) :
    (tokens.flatMap nodes).length = sizeAll tokens := by
  induction tokens with
  | nil => rfl
  | cons token rest ih =>
      obtain ⟨hToken, hRest⟩ := List.forall_mem_cons.mp h
      rw [List.flatMap_cons, List.length_append, hToken, ih hRest, sizeAll]

/-- A type consists of as many tokens as are listed. -/
theorem length_nodes (token : SignatureToken) : token.nodes.length = token.size := by
  induction token using induction_children with
  | parts token ih => rw [nodes_eq, size_eq, List.length_cons, length_flatMap_nodes ih]

section Places

/-- The token at a place. A place tells at each token which of its parts to go on to. -/
def at? : SignatureToken → (place : List Nat) → Option SignatureToken
  | token, [] => some token
  | token, branch :: inner => token.children[branch]?.bind fun child => child.at? inner

mutual

/-- The places of a token, each in front of those further inside and of those to its right. -/
def places : SignatureToken → List (List Nat)
  | vector item => [] :: (places item).map (0 :: ·)
  | reference target => [] :: (places target).map (0 :: ·)
  | mutableReference target => [] :: (places target).map (0 :: ·)
  | instantiation _ arguments => [] :: placesAll 0 arguments
  | _ => [[]]

/-- The places of some parts of a token, the first of which has the number `first` there. -/
def placesAll (first : Nat) : List SignatureToken → List (List Nat)
  | [] => []
  | token :: rest => (places token).map (first :: ·) ++ placesAll (first + 1) rest

end

theorem placesAll_eq (first : Nat) (tokens : List SignatureToken) :
    placesAll first tokens =
      (tokens.zipIdx first).flatMap fun part => part.1.places.map (part.2 :: ·) := by
  induction tokens generalizing first with
  | nil => rfl
  | cons token rest ih => rw [placesAll, ih, List.zipIdx_cons, List.flatMap_cons]

/-- The places in a token are the place of the token itself, and those of its parts with the number
of the part in front. -/
theorem places_eq (token : SignatureToken) :
    token.places =
      [] :: token.children.zipIdx.flatMap fun part => part.1.places.map (part.2 :: ·) := by
  rw [← placesAll_eq]
  cases token <;> simp [places, placesAll, children]

/-- The places are those that lead to a token. -/
theorem mem_places {token : SignatureToken} {place : List Nat} :
    place ∈ token.places ↔ (token.at? place).isSome := by
  induction place generalizing token with
  | nil =>
      rw [places_eq, at?]
      simp
  | cons branch inner ih =>
      rw [places_eq, at?, Option.isSome_bind, Option.any_eq_true]
      simp [List.mem_zipIdx_iff_getElem?, ih]

/-- The places ascend, so that none of them is there twice. -/
theorem pairwise_places (token : SignatureToken) :
    token.places.Pairwise (List.Lex (· < ·)) := by
  induction token using induction_children with
  | parts token ih =>
      have hBranches : token.children.zipIdx.Pairwise (fun left right => left.2 < right.2) := by
        rw [← List.pairwise_map, List.zipIdx_map_snd]
        exact List.pairwise_lt_range'
      rw [places_eq, List.pairwise_cons, List.pairwise_flatMap]
      -- Two places part inside of the same part, or they go on to different ones.
      refine ⟨?_, ?_, hBranches.imp fun hBranch => ?_⟩
      · intro place hPlace
        obtain ⟨part, -, hInner⟩ := List.mem_flatMap.mp hPlace
        obtain ⟨inner, -, rfl⟩ := List.mem_map.mp hInner
        exact .nil
      · intro part hPart
        rw [List.pairwise_map]
        exact (ih part.1 (List.fst_mem_of_mem_zipIdx hPart)).imp .cons
      · intro left hLeft right hRight
        obtain ⟨inner, -, rfl⟩ := List.mem_map.mp hLeft
        obtain ⟨other, -, rfl⟩ := List.mem_map.mp hRight
        exact .rel hBranch

/-- The tokens of a type are those at its places, in the same order. -/
theorem map_at?_places (token : SignatureToken) :
    token.places.map token.at? = token.nodes.map some := by
  induction token using induction_children with
  | parts token ih =>
      have hPart (part : SignatureToken × Nat) (hMem : part ∈ token.children.zipIdx) :
          (part.1.places.map (part.2 :: ·)).map token.at? = part.1.nodes.map some := by
        have hChild := List.mem_zipIdx_iff_getElem?.mp hMem
        have hInner : token.at? ∘ (part.2 :: ·) = part.1.at? := by
          funext inner
          rw [Function.comp_apply, at?, hChild, Option.bind_some]
        rw [List.map_map, hInner, ih part.1 (List.fst_mem_of_mem_zipIdx hMem)]
      calc token.places.map token.at?
          = some token :: token.children.zipIdx.flatMap fun part =>
              (part.1.places.map (part.2 :: ·)).map token.at? := by
            rw [places_eq, List.map_cons, List.map_flatMap, at?]
        _ = some token :: token.children.zipIdx.flatMap fun part => part.1.nodes.map some := by
            rw [List.flatMap_def, List.map_congr_left hPart, ← List.flatMap_def]
        _ = some token :: (token.children.zipIdx.map Prod.fst).flatMap fun child =>
              child.nodes.map some := by
            rw [List.flatMap_map]
        _ = token.nodes.map some := by
            rw [List.zipIdx_map_fst, nodes_eq, List.map_cons, List.map_flatMap]

end Places

/-- Where a traversal of a type stands: the tokens that wait, with the next one on top of the
stack, and the tokens that have been visited. -/
structure Traversal where
  stack : Array SignatureToken
  visited : Array SignatureToken

namespace Traversal

/-- Nothing waits but the type itself. -/
def start (token : SignatureToken) : Traversal :=
  ⟨#[token], #[]⟩

/-- Puts the parts of a token on the stack, the first of them on top. -/
def pushParts (stack : Array SignatureToken) : SignatureToken → Array SignatureToken
  | vector item => stack.push item
  | reference target => stack.push target
  | mutableReference target => stack.push target
  | instantiation _ arguments => stack ++ arguments.reverse
  | _ => stack

/-- Takes the token on top of the stack, if there is one, and visits it. -/
def step? (state : Traversal) : Option Traversal :=
  state.stack.back?.map fun token => ⟨pushParts state.stack.pop token, state.visited.push token⟩

/-- The traversal gets from the first state to the last one in this number of steps. -/
inductive Runs : Traversal → Traversal → (steps : Nat) → Prop
  | zero (state : Traversal) : Runs state state 0
  | succ {first middle last : Traversal} {steps : Nat} (hPrior : Runs first middle steps)
      (hStep : middle.step? = some last) : Runs first last (steps + 1)

/-- What comes of the traversal if it goes on to its end. -/
def outcome (state : Traversal) : List SignatureToken :=
  visit state.stack.toList.reverse state.visited.toList.reverse

variable {state next first last : Traversal} {token : SignatureToken} {steps : Nat}

theorem reverse_push (tokens : Array SignatureToken) (token : SignatureToken) :
    (tokens.push token).toList.reverse = token :: tokens.toList.reverse := by
  rw [Array.toList_push, List.reverse_append, List.reverse_singleton, List.singleton_append]

/-- On the stack the parts of a token are in front of all tokens that waited before. -/
theorem reverse_pushParts (stack : Array SignatureToken) (token : SignatureToken) :
    (pushParts stack token).toList.reverse = token.children ++ stack.toList.reverse := by
  cases token <;> simp [pushParts, children]

theorem outcome_start (token : SignatureToken) : (start token).outcome = token.preorder := rfl

theorem step?_eq_none_iff_empty : state.step? = none ↔ state.stack = #[] := by
  simp [step?]

/-- What has been visited and what is still on the stack are together as many as there will be
visited in the end. -/
theorem length_outcome (state : Traversal) :
    state.outcome.length = state.visited.size + sizeAll state.stack.toList.reverse := by
  rw [outcome, visit_eq, List.reverse_reverse, List.length_append, Array.length_toList,
    length_flatMap_nodes fun token _ => length_nodes token]

/-- The visited tokens are the first ones of those that will have been visited. -/
theorem visited_eq_take (state : Traversal) :
    state.visited.toList = state.outcome.take state.visited.size := by
  rw [outcome, visit_eq, List.reverse_reverse, ← Array.length_toList, List.take_left]

/-- A step changes nothing about what will come of the traversal. -/
theorem outcome_of_step (hStep : state.step? = some next) : next.outcome = state.outcome := by
  obtain ⟨token, hTop, rfl⟩ := Option.map_eq_some_iff.mp hStep
  obtain ⟨stack, hStack⟩ := Array.back?_eq_some_iff.mp hTop
  rw [outcome, outcome, hStack, Array.pop_push, reverse_push, reverse_push, reverse_pushParts,
    visit]

/-- A step visits one token. -/
theorem size_visited_of_step (hStep : state.step? = some next) :
    next.visited.size = state.visited.size + 1 := by
  obtain ⟨token, -, rfl⟩ := Option.map_eq_some_iff.mp hStep
  exact Array.size_push _

/-- No step changes what will have been visited in the end. -/
theorem Runs.outcome_eq (hRuns : Runs first last steps) : last.outcome = first.outcome := by
  induction hRuns with
  | zero => rfl
  | succ _ hStep ih => exact (outcome_of_step hStep).trans ih

/-- A run visits as many tokens as it has steps. -/
theorem Runs.size_visited (hRuns : Runs first last steps) :
    last.visited.size = first.visited.size + steps := by
  induction hRuns with
  | zero => rfl
  | succ _ hStep ih => rw [size_visited_of_step hStep, ih, Nat.add_assoc]

/-- Each step takes one token off those that are still to come. -/
theorem Runs.steps_add_eq (hRuns : Runs (start token) state steps) :
    steps + sizeAll state.stack.toList.reverse = token.size := by
  have hLength := congrArg List.length hRuns.outcome_eq
  have hVisited : state.visited.size = steps := hRuns.size_visited.trans (Nat.zero_add steps)
  rwa [outcome_start, preorder_eq, length_nodes, length_outcome, hVisited] at hLength

/-- The run is over exactly when it has made as many steps as the token has nodes. -/
theorem Runs.step?_eq_none_iff (hRuns : Runs (start token) state steps) :
    state.step? = none ↔ steps = token.size := by
  have hSum := hRuns.steps_add_eq
  rw [step?_eq_none_iff_empty, ← Array.toList_eq_nil_iff, ← List.reverse_eq_nil_iff,
    ← sizeAll_eq_zero]
  omega

/-- At any time the tokens visited so far are the first ones of the listing. -/
theorem Runs.visited_eq (hRuns : Runs (start token) state steps) :
    state.visited.toList = token.preorder.take steps := by
  rw [visited_eq_take, hRuns.outcome_eq, hRuns.size_visited, outcome_start]
  simp [start]

/-- The stack does not run empty before there have been as many steps as there are tokens. -/
theorem exists_runs (hSteps : steps ≤ token.size) :
    ∃ state, Runs (start token) state steps := by
  induction steps with
  | zero => exact ⟨start token, .zero _⟩
  | succ steps ih =>
      obtain ⟨state, hRuns⟩ := ih (Nat.le_of_succ_le hSteps)
      cases hStep : state.step? with
      | some next => exact ⟨next, hRuns.succ hStep⟩
      -- Nothing waits any more, which is so only behind the last token.
      | none => exact absurd (hRuns.step?_eq_none_iff.mp hStep) (Nat.ne_of_lt hSteps)

/-- The traversal ends, with all tokens visited. -/
theorem runs_to_end (token : SignatureToken) :
    Runs (start token) ⟨#[], token.preorder.toArray⟩ token.size := by
  obtain ⟨⟨stack, visited⟩, hRuns⟩ := exists_runs (Nat.le_refl token.size)
  have hLength : token.preorder.length = token.size := by rw [preorder_eq, length_nodes]
  have hStack : stack = #[] := step?_eq_none_iff_empty.mp (hRuns.step?_eq_none_iff.mpr rfl)
  have hVisited : visited.toList = token.preorder := by
    rw [hRuns.visited_eq, ← hLength, List.take_length]
  subst hStack
  rwa [← hVisited, Array.toArray_toList]

end Traversal

/-- A type is traversed in as many steps as it has tokens, whatever the type. After each step the
visited tokens are the first ones of the listing. The listing has the type in front of its parts
and the parts from left to right, one token for each place in the type. -/
theorem preorder_lists_each_place_once (token : SignatureToken) :
    (Traversal.Runs (.start token) ⟨#[], token.preorder.toArray⟩ token.size ∧
      ∀ state steps, Traversal.Runs (.start token) state steps →
        steps ≤ token.size ∧ state.visited.toList = token.preorder.take steps ∧
          (state.step? = none ↔ steps = token.size)) ∧
    token.preorder = token.nodes ∧
    token.places.Pairwise (List.Lex (· < ·)) ∧
    (∀ place, place ∈ token.places ↔ (token.at? place).isSome) ∧
    token.places.map token.at? = token.preorder.map some := by
  refine ⟨⟨Traversal.runs_to_end token, fun state steps hRuns => ?_⟩, preorder_eq token,
    pairwise_places token, fun place => mem_places, ?_⟩
  · exact ⟨Nat.le.intro hRuns.steps_add_eq, hRuns.visited_eq, hRuns.step?_eq_none_iff⟩
  · rw [preorder_eq, map_at?_places]

/-- A part that occurs twice is visited at both of its places. -/
example :
    (instantiation ⟨0⟩ [vector bool, address, vector bool]).preorder =
      [instantiation ⟨0⟩ [vector bool, address, vector bool], vector bool, bool, address,
        vector bool, bool] := by
  cbv

end MoveModule.SignatureToken
