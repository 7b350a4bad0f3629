import HotelMs.HotelsPage
import HotelMs.Lib.HalfEven

/-!
# The concierge (`components/public/AIHelper.jsx`, `chat` in `api/v1/public/ai.py`)

The page sends a question with the last bubbles before it, and the endpoint asks
the language model. Both cut the history to six messages.
-/

namespace HotelMs

open Tables Numerals HalfEven Runs

structure ChatMessage where
  role : String
  content : String
  deriving DecidableEq

structure ChatRequest where
  message : String
  history : Option (List ChatMessage)
  deriving DecidableEq

/-! ### The endpoint -/

/-- `f"{x:.0f}"` -/
def wholeText (x : ℚ) : String :=
  if x < 0 ∧ halfEven x = 0 then "-0" else String.ofList (intText (halfEven x))

def countText (n : ℕ) : String := String.ofList (natText n)

/-- No store when the queries raise. -/
def fetchPortfolioContext : Option Store → String
  | some s =>
    let active := s.rooms.select Room.isActive
    let prices := active.filterMap Room.basePrice
    "Hotel portfolio: " ++ countText s.hotels.rows.length ++ " hotels, " ++
      countText active.length ++ " rooms available, price range $" ++
      wholeText (prices.min?.getD 0) ++ "–$" ++ wholeText (prices.max?.getD 0) ++ "/night."
  | none => "Hotel portfolio data currently unavailable."

def systemPrompt (portfolioNote : String) : String :=
  "You are allStay AI, a luxury hotel concierge assistant. " ++
    "You help guests find perfect rooms, answer questions about amenities, " ++
    "explain booking policies, suggest room styles based on occasions, " ++
    "and describe modern hospitality trends. " ++
    "Be warm, professional, and knowledgeable. " ++
    "Keep responses concise (under 200 words). " ++
    "When recommending rooms, mention style (minimalist, boutique, luxury, ocean-view etc), " ++
    "suitability (romantic, business, family), and price range context.\n\n" ++
    "Current data: " ++ portfolioNote

/-- `l[-6:]`, and `slice(-6)` in the page. -/
def lastSix (l : List ChatMessage) : List ChatMessage := l.drop (l.length - 6)

/-- What the model is given. -/
def chatMessages (body : ChatRequest) : List ChatMessage :=
  let history := body.history.getD []
  let trimmed := if 6 < history.length then lastSix history else history
  trimmed ++ [⟨"user", body.message⟩]

/-- The model, by system prompt and messages; `none` when the call raises. -/
abbrev Claude := String → List ChatMessage → Option String

/-- No client without an API key. -/
def chat (client : Option Claude) (db : Option Store) (body : ChatRequest) : String :=
  match client with
  | none => "AI concierge is not configured yet. Please contact the hotel directly."
  | some create =>
    (create (systemPrompt (fetchPortfolioContext db)) (chatMessages body)).getD
      ("I'm having trouble connecting right now. " ++
        "Please try again in a moment or contact the hotel directly.")

/-! ### The page -/

def quickChips : List String :=
  ["Romantic suite", "Family rooms", "Budget-friendly", "Ocean view", "Business travel",
    "Pet-friendly"]

def welcomeMessage : ChatMessage :=
  ⟨"assistant", "Hi there! 👋 I'm your allStay AI concierge. Ask me anything about our rooms, " ++
    "amenities, or I can help you find the perfect stay for any occasion!"⟩

def troubleText : String :=
  "Sorry, I'm having trouble connecting right now. Please try again in a moment."

/-- `sent` are the requests without an answer. -/
structure ChatPage where
  isOpen : Bool
  messages : List ChatMessage
  loading : Bool
  sent : List ChatRequest
  deriving DecidableEq

inductive ChatEvent
  | openPanel
  | closePanel
  | submit (input : String)
  | chip (i : ℕ)
  | answered (n : ℕ) (client : Option Claude) (db : Option Store)
  | fails (n : ℕ)

namespace ChatPage

def closedPage : ChatPage := ⟨false, [], false, []⟩

variable (p : ChatPage)

/-- With the effect that greets the visitor. -/
def opens : ChatPage :=
  { p with isOpen := true, messages := if p.messages = [] then [welcomeMessage] else p.messages }

def send (text : String) : ChatPage :=
  let trimmed := String.ofList (jsTrim text.toList)
  if trimmed = "" then p
  else
    { p with
      messages := p.messages ++ [⟨"user", trimmed⟩], loading := true
      sent := p.sent ++ [⟨trimmed, some (lastSix p.messages)⟩] }

def reply (n : ℕ) (content : String) : ChatPage :=
  { p with
    messages := p.messages ++ [⟨"assistant", content⟩], loading := false
    sent := p.sent.eraseIdx n }

/-- The chips are there below a greeting, the form while the panel is open, disabled
while an answer loads. -/
def step : ChatEvent → ChatPage
  | .openPanel => p.opens
  | .closePanel => { p with isOpen := false }
  | .submit input => if p.isOpen = true ∧ p.loading = false then p.send input else p
  | .chip i =>
    match quickChips[i]? with
    | some chip =>
      if p.isOpen = true ∧ p.loading = false ∧ p.messages.length ≤ 1 then p.send chip else p
    | none => p
  | .answered n client db =>
    match p.sent[n]? with
    | some body => p.reply n (chat client db body)
    | none => p
  | .fails n =>
    match p.sent[n]? with
    | some _ => p.reply n troubleText
    | none => p

end ChatPage

/-! ### Turns -/

def turnMessages (turns : List (String × String)) : List ChatMessage :=
  turns.flatMap fun t => [⟨"user", t.1⟩, ⟨"assistant", t.2⟩]

/-- The greeting, and each question with its answer. -/
def conversation (turns : List (String × String)) : List ChatMessage :=
  welcomeMessage :: turnMessages turns

def Alternates (l : List ChatMessage) : Prop := l.IsChain fun a b => a.role ≠ b.role

theorem length_turnMessages (turns : List (String × String)) :
    (turnMessages turns).length = 2 * turns.length := by
  induction turns with
  | nil => rfl
  | cons t turns ih =>
    show (turnMessages turns).length + 2 = 2 * (turns.length + 1)
    omega

theorem drop_turnMessages (turns : List (String × String)) (n : ℕ) :
    (turnMessages turns).drop (2 * n) = turnMessages (turns.drop n) := by
  induction n generalizing turns with
  | zero => rfl
  | succ n ih =>
    cases turns with
    | nil => rfl
    | cons t turns => exact ih turns

theorem turnMessages_append (turns : List (String × String)) (q a : String) :
    turnMessages (turns ++ [(q, a)]) = turnMessages turns ++ [⟨"user", q⟩, ⟨"assistant", a⟩] :=
  List.flatMap_append

/-- After an assistant's bubble, whole turns and a question alternate. -/
theorem alternates_turns (turns : List (String × String)) (content q : String) :
    Alternates (⟨"assistant", content⟩ :: (turnMessages turns ++ [⟨"user", q⟩])) := by
  have hroles : "assistant" ≠ "user" := by decide
  induction turns generalizing content with
  | nil => exact .cons_cons hroles (.singleton _)
  | cons t turns ih => exact .cons_cons hroles (.cons_cons hroles.symm (ih t.2))

theorem lastSix_append (l : List ChatMessage) (m : ChatMessage) :
    lastSix l ++ [m] = (l ++ [m]).drop ((l ++ [m]).length - 7) := by
  have hlength : (l ++ [m]).length - 7 = l.length - 6 := by
    rw [List.length_append, List.length_singleton]
    omega
  rw [hlength, List.drop_append_of_le_length (Nat.sub_le _ _), lastSix]

/-- The endpoint cuts nothing more. -/
theorem chatMessages_lastSix (q : String) (l : List ChatMessage) :
    chatMessages ⟨q, some (lastSix l)⟩ = lastSix l ++ [⟨"user", q⟩] := by
  have hshort : ¬6 < (lastSix l).length := by
    rw [lastSix, List.length_drop]
    omega
  rw [chatMessages]
  dsimp only [Option.getD_some]
  rw [if_neg hshort]

/-- The window begins with the greeting or with a question. -/
theorem head_window (turns : List (String × String)) (q : String) :
    let l := conversation turns ++ [⟨"user", q⟩]
    (l.drop (l.length - 7)).head?.map ChatMessage.role =
      some (if l.length ≤ 6 then "assistant" else "user") := by
  intro l
  have hlength : l.length = 2 * turns.length + 2 := by
    show (welcomeMessage :: turnMessages turns ++ [_]).length = _
    rw [List.length_append, List.length_cons, length_turnMessages, List.length_singleton]
  by_cases hfew : l.length ≤ 6
  · rw [if_pos hfew, Nat.sub_eq_zero_of_le (by omega)]
    rfl
  · have hdrop : l.length - 7 = 2 * (turns.length - 3) + 1 := by omega
    have hlast : turns.drop (turns.length - 3) ≠ [] := by
      rw [ne_eq, List.drop_eq_nil_iff]
      omega
    obtain ⟨t, rest, hrest⟩ := List.exists_cons_of_ne_nil hlast
    rw [if_neg hfew, hdrop]
    show (((turnMessages turns ++ [_]).drop (2 * (turns.length - 3))).head?).map _ = _
    rw [List.drop_append_of_le_length (by rw [length_turnMessages]; omega), drop_turnMessages,
      hrest]
    rfl

/-! ### What is asked and answered -/

/-- The questions of a visitor with what came back for each, and the one that waits. -/
inductive Talk
  | unopened
  | resting (isOpen : Bool) (turns : List (String × String))
  | waiting (isOpen : Bool) (turns : List (String × String)) (question : String)

namespace Talk

def shows (isOpen : Bool) : Talk → Talk
  | unopened => if isOpen then .resting true [] else .unopened
  | resting _ turns => .resting isOpen turns
  | waiting _ turns question => .waiting isOpen turns question

/-- A text that is not blank is asked while the panel is open and no question waits. -/
def ask (text : String) : Talk → Talk
  | resting true turns =>
    let trimmed := String.ofList (jsTrim text.toList)
    if trimmed = "" then .resting true turns else .waiting true turns trimmed
  | t => t

def hear (n : ℕ) (reply : ChatRequest → String) : Talk → Talk
  | waiting isOpen turns question =>
    if n = 0 then
      .resting isOpen (turns ++
        [(question, reply ⟨question, some (lastSix (conversation turns))⟩)])
    else .waiting isOpen turns question
  | t => t

/-- A chip asks the first question only. -/
def pick (chip : String) : Talk → Talk
  | resting true [] => (resting true []).ask chip
  | t => t

def step (t : Talk) : ChatEvent → Talk
  | .openPanel => t.shows true
  | .closePanel => t.shows false
  | .submit input => t.ask input
  | .chip i =>
    match quickChips[i]? with
    | some chip => t.pick chip
    | none => t
  | .answered n client db => t.hear n (chat client db)
  | .fails n => t.hear n fun _ => troubleText

def bubbles : Talk → List ChatMessage
  | unopened => []
  | resting _ turns => conversation turns
  | waiting _ turns question => conversation turns ++ [⟨"user", question⟩]

def page : Talk → ChatPage
  | unopened => .closedPage
  | resting isOpen turns => ⟨isOpen, conversation turns, false, []⟩
  | waiting isOpen turns question =>
    ⟨isOpen, conversation turns ++ [⟨"user", question⟩], true,
      [⟨question, some (lastSix (conversation turns))⟩]⟩

theorem page_shows (t : Talk) : t.page.opens = (t.shows true).page ∧
    { t.page with isOpen := false } = (t.shows false).page := by
  cases t with
  | unopened => exact ⟨rfl, rfl⟩
  | resting isOpen turns => exact ⟨rfl, rfl⟩
  | waiting isOpen turns question => exact ⟨rfl, rfl⟩

theorem page_send (turns : List (String × String)) (text : String) :
    (resting true turns).page.send text = ((resting true turns).ask text).page := by
  rw [page, ChatPage.send, ask]
  dsimp only
  split
  · rfl
  · rfl

theorem page_ask (t : Talk) (text : String) :
    (if t.page.isOpen = true ∧ t.page.loading = false then t.page.send text else t.page) =
      (t.ask text).page := by
  cases t with
  | unopened => rfl
  | resting isOpen turns =>
    cases isOpen with
    | false => rfl
    | true => exact (if_pos ⟨rfl, rfl⟩).trans (page_send turns text)
  | waiting isOpen turns question =>
    cases isOpen with
    | false => rfl
    | true => rfl

theorem page_pick (t : Talk) (chip : String) :
    (if t.page.isOpen = true ∧ t.page.loading = false ∧ t.page.messages.length ≤ 1 then
      t.page.send chip else t.page) = (t.pick chip).page := by
  cases t with
  | unopened => rfl
  | resting isOpen turns =>
    cases isOpen with
    | false => rfl
    | true =>
      cases turns with
      | nil => exact (if_pos ⟨rfl, rfl, le_rfl⟩).trans (page_send [] chip)
      | cons turn turns =>
        refine if_neg fun h => ?_
        have hlength : (welcomeMessage :: turnMessages (turn :: turns)).length ≤ 1 := h.2.2
        rw [List.length_cons, length_turnMessages, List.length_cons] at hlength
        omega
  | waiting isOpen turns question =>
    cases isOpen with
    | false => rfl
    | true => rfl

theorem page_reply (isOpen : Bool) (turns : List (String × String)) (question content : String) :
    (waiting isOpen turns question).page.reply 0 content =
      (resting isOpen (turns ++ [(question, content)])).page := by
  have hturns : conversation turns ++ [⟨"user", question⟩] ++ [⟨"assistant", content⟩] =
      conversation (turns ++ [(question, content)]) := by
    rw [conversation, conversation, turnMessages_append, List.append_assoc]
    rfl
  rw [page, page, ChatPage.reply]
  dsimp only
  rw [hturns]
  rfl

theorem page_hear (t : Talk) (n : ℕ) (reply : ChatRequest → String) :
    (match t.page.sent[n]? with
      | some body => t.page.reply n (reply body)
      | none => t.page) = (t.hear n reply).page := by
  cases t with
  | unopened => rfl
  | resting isOpen turns => rfl
  | waiting isOpen turns question =>
    cases n with
    | zero => exact page_reply isOpen turns question _
    | succ n => rfl

theorem page_step (t : Talk) (e : ChatEvent) : t.page.step e = (t.step e).page := by
  cases e with
  | openPanel => exact (page_shows t).1
  | closePanel => exact (page_shows t).2
  | submit input => exact page_ask t input
  | chip i =>
    rw [ChatPage.step, step]
    split
    next chip _ => exact page_pick t chip
    next => rfl
  | answered n client db => exact page_hear t n (chat client db)
  | fails n => exact page_hear t n fun _ => troubleText

end Talk

/-! ### Every run -/

/-- The bubbles are the talk. One question is under way at most, it is the last bubble,
and the model is given the last seven bubbles of the page, of which the greeting leads
only those before the fourth question. -/
structure ChatPage.Faithful (t : Talk) (p : ChatPage) : Prop where
  waits : p.loading = true ↔ p.sent ≠ []
  one : p.sent.length ≤ 1
  bubbles : p.messages = t.bubbles
  question : ∀ body ∈ p.sent, p.messages.getLast? = some ⟨"user", body.message⟩
  window : ∀ body ∈ p.sent, chatMessages body = p.messages.drop (p.messages.length - 7)
  alternates : ∀ body ∈ p.sent, Alternates (chatMessages body)
  leads : ∀ body ∈ p.sent, (chatMessages body).head?.map ChatMessage.role =
    some (if p.messages.length ≤ 6 then "assistant" else "user")

theorem ChatPage.faithful_of_idle {t : Talk} {p : ChatPage} (hloading : p.loading = false)
    (hsent : p.sent = []) (hbubbles : p.messages = t.bubbles) : p.Faithful t := by
  have hnone : ∀ body, body ∉ p.sent := by
    rw [hsent]
    exact fun _ => List.not_mem_nil
  exact {
    waits := iff_of_false (by rw [hloading]; decide) fun h => h hsent
    one := by rw [hsent]; exact Nat.zero_le 1
    bubbles := hbubbles
    question := fun body h => absurd h (hnone body)
    window := fun body h => absurd h (hnone body)
    alternates := fun body h => absurd h (hnone body)
    leads := fun body h => absurd h (hnone body) }

theorem Talk.faithful_page (t : Talk) : t.page.Faithful t := by
  cases t with
  | unopened => exact ChatPage.faithful_of_idle rfl rfl rfl
  | resting isOpen turns => exact ChatPage.faithful_of_idle rfl rfl rfl
  | waiting isOpen turns q =>
    have hwindow := (chatMessages_lastSix q (conversation turns)).trans (lastSix_append _ _)
    have hall : Alternates (conversation turns ++ [⟨"user", q⟩]) := alternates_turns turns _ q
    refine ⟨by simp [page], le_rfl, rfl, ?_, ?_, ?_, ?_⟩
    · intro body hbody
      obtain rfl := List.mem_singleton.mp hbody
      exact List.getLast?_concat
    · intro body hbody
      obtain rfl := List.mem_singleton.mp hbody
      exact hwindow
    · intro body hbody
      obtain rfl := List.mem_singleton.mp hbody
      rw [hwindow]
      exact hall.drop _
    · intro body hbody
      obtain rfl := List.mem_singleton.mp hbody
      rw [hwindow]
      exact head_window turns q

/-- Visitor and page take each event. -/
def talkStep (x : Talk × ChatPage) (e : ChatEvent) : Talk × ChatPage := (x.1.step e, x.2.step e)

/-- After any clicks, questions and answers, whatever the model says. -/
theorem concierge_tells_what_it_shows (es : List ChatEvent) :
    Always talkStep (fun x => x.2.Faithful x.1) (.unopened, .closedPage) es := by
  have hpage : Always talkStep (fun x => x.2 = x.1.page) (.unopened, .closedPage) es := by
    refine always_of_along (P := fun _ _ => True) (fun x e h _ => ?_) rfl
      (along_of_forall fun _ _ _ => trivial)
    show x.2.step e = (x.1.step e).page
    rw [h]
    exact x.1.page_step e
  refine hpage.mono fun x h => ?_
  rw [h]
  exact x.1.faithful_page

/-- The fourth question is the first without the greeting. -/
example :
    let asks := [ChatEvent.submit " Any suites? ", .answered 0 none none]
    let p := run ChatPage.step .closedPage (.openPanel :: asks ++ asks ++ asks ++ asks.take 1)
    p.messages.length = 8 ∧ p.sent.map (fun body => (chatMessages body).length) = [7] ∧
      p.sent.map ChatRequest.message = ["Any suites?"] := by
  decide +kernel

end HotelMs
