/-
This file follows several games through a run of requests to any of them and proves that each game
goes on as if it were alone, and as if nothing but new hands were asked of it.
-/

import FourCards.Proofs.Game.Session

namespace FourCards

namespace Table

variable {σ : Type} [WordSource σ]

/-- Every game has settings and a source of its own. -/
def start (games : List (Settings × σ)) : Table σ :=
  games.map fun game => Session.start game.1 game.2

/-- A request is answered by the game it is addressed to, if there is one. -/
theorem reply_serve (table : Table σ) (index : Nat) (request : Request) :
    (table.serve index request).1 =
      table[index]?.map fun session => (session.serve request).1 := by
  unfold serve
  cases table[index]? <;> rfl

/-- A new hand is dealt to the game that it is asked of. -/
theorem getElem?_serve_newHand (table : Table σ) (index : Nat) :
    (table.serve index .newHand).2[index]? = table[index]?.map Session.newHand := by
  cases found : table[index]? with
  | none => rw [serve, found, Option.map_none]; exact found
  | some session => rw [serveSelf found, Option.map_some]; rfl

/-- No other step changes a game. -/
theorem getElem?_serve_of_ne (table : Table σ) {index : Nat} {step : Nat × Request}
    (other : step ≠ (index, .newHand)) :
    (table.serve step.1 step.2).2[index]? = table[index]? := by
  obtain ⟨place, request⟩ := step
  by_cases same : place = index
  · subst same
    have kept : request ≠ .newHand := fun dealt => other (by rw [dealt])
    cases found : table[place]? with
    | none => rw [serve, found]; exact found
    | some session => rw [serveSelf found, session.serveUnchanged kept]
  · exact table.serveOther same request

theorem run_cons (table : Table σ) (step : Nat × Request) (steps : List (Nat × Request)) :
    table.run (step :: steps) =
      ((table.serve step.1 step.2).1 :: ((table.serve step.1 step.2).2.run steps).1,
        ((table.serve step.1 step.2).2.run steps).2) := rfl

/-- After any run, a game has dealt the new hands that were asked of it, and nothing else happened
to it. -/
theorem getElem?_run (table : Table σ) (index : Nat) (steps : List (Nat × Request)) :
    (table.run steps).2[index]? =
      table[index]?.map Session.newHand^[steps.count (index, .newHand)] := by
  induction steps generalizing table with
  | nil => exact Option.map_id'.symm
  | cons step steps continued =>
      rw [run_cons, continued]
      by_cases dealt : step = (index, .newHand)
      · subst dealt
        rw [getElem?_serve_newHand, Option.map_map, List.count_cons_self]
        rfl
      · rw [getElem?_serve_of_ne table dealt, List.count_cons_of_ne dealt]

/-- What a game replies to those steps of a run that are marked. -/
def replies (table : Table σ) (index : Nat) (steps : List (Bool × Nat × Request)) :
    List (Option Reply) :=
  ((steps.zip (table.run (steps.map Prod.snd)).1).filter
    fun answered => answered.1.1 && answered.1.2.1 == index).map Prod.snd

/-- The reply to a marked step of the game comes before the replies to the later ones. -/
theorem replies_cons (table : Table σ) (index : Nat) (step : Bool × Nat × Request)
    (steps : List (Bool × Nat × Request)) :
    table.replies index (step :: steps) =
      (if step.1 && step.2.1 == index then [(table.serve step.2.1 step.2.2).1] else []) ++
        (table.serve step.2.1 step.2.2).2.replies index steps := by
  rw [replies, List.map_cons, run_cons, List.zip_cons_cons, List.filter_cons]
  split <;> rfl

/-- The same step keeps two tables alike at a game. -/
theorem getElem?_serve_congr {table other : Table σ} {index : Nat}
    (alike : table[index]? = other[index]?) (step : Nat × Request) :
    (table.serve step.1 step.2).2[index]? = (other.serve step.1 step.2).2[index]? := by
  by_cases dealt : step = (index, .newHand)
  · rw [dealt, getElem?_serve_newHand, getElem?_serve_newHand, alike]
  · rw [getElem?_serve_of_ne table dealt, getElem?_serve_of_ne other dealt, alike]

/-- A game replies alike at two tables that are alike at it, also if steps that ask it for no new hand
are left out at one of them. The induction carries the two tables, which differ at other games. -/
theorem replies_filter {table other : Table σ} {index : Nat}
    (alike : table[index]? = other[index]?) {steps : List (Bool × Nat × Request)}
    (harmless : ∀ step ∈ steps, step.1 = false → step.2 ≠ (index, .newHand)) :
    table.replies index steps = other.replies index (steps.filter Prod.fst) := by
  induction steps generalizing table other with
  | nil => rfl
  | cons step steps continued =>
      have later := fun other inside => harmless other (List.mem_cons_of_mem step inside)
      obtain ⟨kept, place, request⟩ := step
      cases kept with
      | false =>
          have unchanged := table.getElem?_serve_of_ne (harmless _ List.mem_cons_self rfl)
          rw [replies_cons, List.filter_cons_of_neg (by simp),
            continued (unchanged.trans alike) later]
          rfl
      | true =>
          rw [replies_cons, List.filter_cons_of_pos rfl, replies_cons,
            continued (getElem?_serve_congr alike (place, request)) later]
          congr 1
          split
          · rename_i addressed
            obtain rfl : place = index := by simpa using addressed
            rw [reply_serve, reply_serve, alike]
          · rfl

/-- Leaving out steps that ask a game for no new hand does not change how many are dealt to it. -/
theorem count_filter {index : Nat} {steps : List (Bool × Nat × Request)}
    (harmless : ∀ step ∈ steps, step.1 = false → step.2 ≠ (index, .newHand)) :
    ((steps.filter Prod.fst).map Prod.snd).count (index, .newHand) =
      (steps.map Prod.snd).count (index, .newHand) := by
  rw [List.count_eq_countP, List.count_eq_countP, List.countP_map, List.countP_map, List.countP_filter]
  refine List.countP_congr fun step inside => ?_
  have kept := harmless step inside
  cases marked : step.1 with
  | false => simp [kept marked]
  | true => simp

/-- Each game is started by itself. -/
theorem getElem?_start {games : List (Settings × σ)} {index : Nat} {settings : Settings} {source : σ}
    (found : games[index]? = some (settings, source)) :
    (start games)[index]? = some (Session.start settings source) := by
  rw [start, List.getElem?_map, found, Option.map_some]

/-- Any number of games are played at a table, with steps in any order. After any steps, each game
has four different cards of the deck and their values for its hand; they are those of the deal from
its own source that comes after the first and the new hands it was asked for; and it has the settings
it was started with. A game that is played at another table, or with any steps but its own new hands
left out, gives the same replies to the steps that remain and is the same game after them. -/
theorem games_apart (games : List (Settings × σ)) :
    (∀ (steps : List (Nat × Request)) (index : Nat) (settings : Settings) (source : σ),
      games[index]? = some (settings, source) →
      ∃ session, ((start games).run steps).2[index]? = some session ∧
        session.Keeps settings source (steps.count (index, .newHand))) ∧
    ∀ (others : List (Settings × σ)) (index : Nat) (steps : List (Bool × Nat × Request)),
      games[index]? = others[index]? →
      (∀ step ∈ steps, step.1 = false → step.2 ≠ (index, .newHand)) →
      (start games).replies index steps = (start others).replies index (steps.filter Prod.fst) ∧
        ((start games).run (steps.map Prod.snd)).2[index]? =
          ((start others).run ((steps.filter Prod.fst).map Prod.snd)).2[index]? := by
  constructor
  · intro steps index settings source found
    refine ⟨_, ?_, Session.newHands_keeps settings source _⟩
    rw [getElem?_run, getElem?_start found, Option.map_some]
  · intro others index steps same harmless
    have alike : (start games)[index]? = (start others)[index]? := by
      rw [start, start, List.getElem?_map, List.getElem?_map, same]
    refine ⟨replies_filter alike harmless, ?_⟩
    rw [getElem?_run, getElem?_run, alike, count_filter harmless]

/-- The second of two games is asked for two new hands and for a hint in between. Beside another game,
and without the question and the answer that it was sent, it gives the same hint and shows the same
cards. -/
theorem games_apart_second :
    (∃ session, ((start [(.standard, Source.listed []),
        (⟨Binary64.zero.negate, Binary64.ofNat 1⟩, .congruential 35)]).run
        [(1, .newHand), (0, .newHand), (1, .hint), (1, .newHand)]).2[1]? = some session ∧
      session.Keeps ⟨Binary64.zero.negate, Binary64.ofNat 1⟩ (Source.congruential 35) 2) ∧
    (start [(.standard, Source.listed []),
        (⟨Binary64.zero.negate, Binary64.ofNat 1⟩, .congruential 35)]).replies 1
        [(true, 1, .newHand), (false, 0, .newHand), (false, 1, .settings),
          (false, 1, .verify "1"), (true, 1, .hint), (true, 1, .cards)] =
      [some (.hand (.values ⟨⟨9, 11, 7, 13⟩, by decide⟩)), some (.hint (.found "(9+11)-(7+13)")),
        some (.hand (.cards
          ⟨⟨.nine, .diamonds⟩, ⟨.jack, .clubs⟩, ⟨.seven, .clubs⟩, ⟨.king, .spades⟩⟩))] := by
  constructor
  · exact (games_apart _).1 [(1, .newHand), (0, .newHand), (1, .hint), (1, .newHand)] 1 _ _ rfl
  · have alone := (games_apart [(.standard, Source.listed []),
        (⟨Binary64.zero.negate, Binary64.ofNat 1⟩, .congruential 35)]).2
      [(.standard, Source.congruential 1),
        (⟨Binary64.zero.negate, Binary64.ofNat 1⟩, .congruential 35)] 1
      [(true, 1, .newHand), (false, 0, .newHand), (false, 1, .settings),
        (false, 1, .verify "1"), (true, 1, .hint), (true, 1, .cards)] rfl (by decide)
    let session := Session.start ⟨Binary64.zero.negate, Binary64.ofNat 1⟩ (Source.congruential 35)
    have answered : (start [(.standard, Source.congruential 1),
        (⟨Binary64.zero.negate, Binary64.ofNat 1⟩, .congruential 35)]).replies 1
          [(true, 1, .newHand), (true, 1, .hint), (true, 1, .cards)] =
        [some (.hand (.values session.newHand.hand)), some (.hint session.newHand.hint),
          some (.hand (.cards session.newHand.cards))] := rfl
    refine alone.1.trans (answered.trans ?_)
    rw [Session.newHand_congruential]
    decide +kernel

end Table

end FourCards
