/-
This file runs several games side by side: each request is addressed to one of them.
-/

import FourCards.Game.Session

namespace FourCards

inductive Request where
  | newHand
  | verify (text : String)
  | hint
  | solutions
  /-- The game's own hint is judged, or an empty text if there is none. -/
  | verifyHint
  | settings
  | hand
  | cards
deriving DecidableEq

/-- A hand is shown by its values or by its cards. -/
inductive Shown where
  | values (hand : Hand)
  | cards (cards : Four Card)
deriving DecidableEq

/-- The values of what is shown. -/
def Shown.toList : Shown → List Nat
  | values hand => hand.toList
  | cards dealt => (Hand.ofCards dealt).toList

inductive Reply where
  | hand (shown : Shown)
  | outcome (outcome : Outcome)
  | hint (hint : Hint)
  | solutions (expressions : List String)
  | settings (settings : Settings)
deriving DecidableEq

namespace Session

variable {σ : Type} [WordSource σ]

/-- Only a request for a new hand changes the game. -/
def serve (session : Session σ) : Request → Reply × Session σ
  | .newHand =>
      let session := session.newHand
      (.hand (.values session.hand), session)
  | .verify text => (.outcome (session.verify text), session)
  | .hint => (.hint session.hint, session)
  | .solutions => (.solutions session.solutions, session)
  | .verifyHint =>
      (.outcome (session.verify (session.hint.expression?.getD "")), session)
  | .settings => (.settings session.settings, session)
  | .hand => (.hand (.values session.hand), session)
  | .cards => (.hand (.cards session.cards), session)

theorem serveSettings (session : Session σ) (request : Request) :
    (session.serve request).2.settings = session.settings := by
  cases request <;> rfl

theorem serveUnchanged (session : Session σ) {request : Request} (kept : request ≠ .newHand) :
    (session.serve request).2 = session := by
  cases request <;> first | rfl | contradiction

end Session

abbrev Table (σ : Type) := List (Session σ)

namespace Table

variable {σ : Type} [WordSource σ]

/-- Serves a request to the game at an index, if there is one. -/
def serve (table : Table σ) (index : Nat) (request : Request) : Option Reply × Table σ :=
  match table[index]? with
  | none => (none, table)
  | some session =>
      let served := session.serve request
      (some served.1, table.set index served.2)

theorem serveSelf {table : Table σ} {index : Nat} {session : Session σ}
    (found : table[index]? = some session) (request : Request) :
    (table.serve index request).2[index]? = some (session.serve request).2 := by
  obtain ⟨inside, rfl⟩ := List.getElem?_eq_some_iff.mp found
  simp [serve, inside]

theorem serveOther (table : Table σ) {index other : Nat} (apart : index ≠ other)
    (request : Request) : (table.serve index request).2[other]? = table[other]? := by
  unfold serve
  split
  · rfl
  · simp [List.getElem?_set_ne apart]

/-- Serves requests in turn and collects the replies. -/
def run (table : Table σ) : List (Nat × Request) → List (Option Reply) × Table σ
  | [] => ([], table)
  | (index, request) :: requests =>
      let served := table.serve index request
      let others := served.2.run requests
      (served.1 :: others.1, others.2)

end Table

end FourCards
