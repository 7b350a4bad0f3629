import HotelMs.EmailTemplates
import HotelMs.Lib.Retries

/-!
# E-mail tasks (`app/tasks/email_tasks.py`)

A task builds its mail and hands it to `_send`, which logs what the SMTP client
raises and returns. Only an exception that leaves the body makes the worker try
again.
-/

namespace HotelMs

open Templates Numerals Retries

structure MailSettings where
  emailsEnabled : Bool
  emailFromName : List Char
  emailFrom : List Char
  frontendUrl : List Char
  appName : List Char

structure Message where
  subject : List Char
  sender : List Char
  toAddr : List Char
  html : List Char

/-- What one attempt meets: the template files, and whether `aiosmtplib.send`
returns without an exception. -/
structure Attempt where
  templates : String → TemplateFile
  smtpAccepts : Bool

/-- The messages that the SMTP server has taken. -/
def send (settings : MailSettings) (smtpAccepts : Bool) (toAddr subject html : List Char) :
    Option (List Message) :=
  if settings.emailsEnabled then
    let msg : Message := {
      subject := subject
      sender := settings.emailFromName ++ " <".toList ++ settings.emailFrom ++ ['>']
      toAddr := toAddr
      html := html }
    -- `except Exception` logs and goes on
    if smtpAccepts then some [msg] else some []
  else some []

/-! ### The tasks -/

def verifyUrlKey : ContextKey := ⟨"verify_url".toList, by decide⟩

def bookingIdKey : ContextKey := ⟨"booking_id".toList, by decide⟩

def checkInKey : ContextKey := ⟨"check_in".toList, by decide⟩

def checkOutKey : ContextKey := ⟨"check_out".toList, by decide⟩

def roomKey : ContextKey := ⟨"room".toList, by decide⟩

def totalKey : ContextKey := ⟨"total".toList, by decide⟩

def hotelNameKey : ContextKey := ⟨"hotel_name".toList, by decide⟩

theorem nodup_verificationKeys : [fullNameKey, verifyUrlKey].Nodup := by decide

theorem nodup_cancellationKeys : [fullNameKey, bookingIdKey].Nodup := by decide

theorem nodup_reminderKeys : [fullNameKey, checkInKey, hotelNameKey].Nodup := by decide

theorem nodup_confirmationKeys :
    [fullNameKey, bookingIdKey, checkInKey, checkOutKey, roomKey, totalKey].Nodup := by decide

/-- What the six tasks with a template have in common. -/
def sendTemplate (settings : MailSettings) (a : Attempt) (name : String)
    (context : TemplateContext) (toAddr subject : List Char) : Option (List Message) := do
  let html ← loadTemplate a.templates name context
  send settings a.smtpAccepts toAddr subject html

def sendEmail (settings : MailSettings) (a : Attempt) (toAddr subject html : List Char) :
    Option (List Message) :=
  send settings a.smtpAccepts toAddr subject html

def sendWelcomeEmailTask (settings : MailSettings) (a : Attempt) (toAddr fullName : List Char) :
    Option (List Message) :=
  sendTemplate settings a "welcome_email.html" (welcomeContext fullName) toAddr
    ("Welcome to ".toList ++ settings.appName ++ ['!'])

def sendBookingConfirmationTask (settings : MailSettings) (a : Attempt)
    (toAddr fullName : List Char) (bookingId : ℤ) (checkIn checkOut room total : List Char) :
    Option (List Message) :=
  sendTemplate settings a "booking_confirmation.html"
    { items := [(fullNameKey, .text fullName), (bookingIdKey, .int bookingId),
        (checkInKey, .text checkIn), (checkOutKey, .text checkOut), (roomKey, .text room),
        (totalKey, .text total)]
      nodup := nodup_confirmationKeys }
    toAddr ("Booking #".toList ++ intText bookingId ++ " Confirmed".toList)

def sendBookingCancellationTask (settings : MailSettings) (a : Attempt)
    (toAddr fullName : List Char) (bookingId : ℤ) : Option (List Message) :=
  sendTemplate settings a "booking_cancellation.html"
    { items := [(fullNameKey, .text fullName), (bookingIdKey, .int bookingId)]
      nodup := nodup_cancellationKeys }
    toAddr ("Booking #".toList ++ intText bookingId ++ " Cancelled".toList)

def sendCheckinReminderTask (settings : MailSettings) (a : Attempt)
    (toAddr fullName checkIn hotelName : List Char) : Option (List Message) :=
  sendTemplate settings a "reminder_checkin.html"
    { items := [(fullNameKey, .text fullName), (checkInKey, .text checkIn),
        (hotelNameKey, .text hotelName)]
      nodup := nodup_reminderKeys }
    toAddr ("Reminder: Your check-in at ".toList ++ hotelName ++ " is tomorrow".toList)

def sendVerificationEmailTask (settings : MailSettings) (a : Attempt)
    (toAddr fullName token : List Char) : Option (List Message) :=
  let verifyUrl := settings.frontendUrl ++ "/verify-email?token=".toList ++ token
  sendTemplate settings a "email_verification.html"
    { items := [(fullNameKey, .text fullName), (verifyUrlKey, .text verifyUrl)]
      nodup := nodup_verificationKeys }
    toAddr "Verify your email address".toList

def sendPasswordResetTask (settings : MailSettings) (a : Attempt)
    (toAddr fullName token : List Char) : Option (List Message) :=
  let resetUrl := settings.frontendUrl ++ "/reset-password?token=".toList ++ token
  sendTemplate settings a "password_reset.html" (resetContext fullName resetUrl) toAddr
    "Reset your password".toList

inductive EmailTask
  | email (toAddr subject html : List Char)
  | welcome (toAddr fullName : List Char)
  | confirmation (toAddr fullName : List Char) (bookingId : ℤ)
    (checkIn checkOut room total : List Char)
  | cancellation (toAddr fullName : List Char) (bookingId : ℤ)
  | reminder (toAddr fullName checkIn hotelName : List Char)
  | verification (toAddr fullName token : List Char)
  | passwordReset (toAddr fullName token : List Char)

/-- The body of a task; `none` is an exception, which becomes `self.retry`. -/
def EmailTask.body (settings : MailSettings) (a : Attempt) : EmailTask → Option (List Message)
  | .email toAddr subject html => sendEmail settings a toAddr subject html
  | .welcome toAddr fullName => sendWelcomeEmailTask settings a toAddr fullName
  | .confirmation toAddr fullName bookingId checkIn checkOut room total =>
    sendBookingConfirmationTask settings a toAddr fullName bookingId checkIn checkOut room total
  | .cancellation toAddr fullName bookingId =>
    sendBookingCancellationTask settings a toAddr fullName bookingId
  | .reminder toAddr fullName checkIn hotelName =>
    sendCheckinReminderTask settings a toAddr fullName checkIn hotelName
  | .verification toAddr fullName token =>
    sendVerificationEmailTask settings a toAddr fullName token
  | .passwordReset toAddr fullName token => sendPasswordResetTask settings a toAddr fullName token

/-- `max_retries` of every task. -/
def emailMaxRetries : ℕ := 3

def EmailTask.report (worker : RetryWorker (List Message)) (settings : MailSettings)
    (attempts : ℕ → Attempt) (t : EmailTask) : Report (List Message) :=
  worker.work emailMaxRetries fun n => t.body settings (attempts n)

/-! ### Which attempts raise, and which deliver -/

def EmailTask.template : EmailTask → Option String
  | .email .. => none
  | .welcome .. => some "welcome_email.html"
  | .confirmation .. => some "booking_confirmation.html"
  | .cancellation .. => some "booking_cancellation.html"
  | .reminder .. => some "reminder_checkin.html"
  | .verification .. => some "email_verification.html"
  | .passwordReset .. => some "password_reset.html"

/-- The task's template can be read, or it has none. -/
def EmailTask.Readable (t : EmailTask) (a : Attempt) : Prop :=
  ∀ name ∈ t.template, a.templates name ≠ .unreadable

def EmailTask.Delivers (settings : MailSettings) (a : Attempt) (t : EmailTask) : Prop :=
  ∃ msg, t.body settings a = some [msg]

theorem loadTemplate_eq_none {templates : String → TemplateFile} {name : String}
    {context : TemplateContext} :
    loadTemplate templates name context = none ↔ templates name = .unreadable := by
  unfold loadTemplate
  cases templates name with
  | missing => exact iff_of_false (Option.some_ne_none _) TemplateFile.noConfusion
  | unreadable => exact iff_of_true rfl rfl
  | html text => exact iff_of_false (Option.some_ne_none _) TemplateFile.noConfusion

variable {settings : MailSettings} {a : Attempt}

/-- Whatever the server does, `_send` returns. -/
theorem send_eq {smtpAccepts : Bool} {toAddr subject html : List Char}
    (henabled : settings.emailsEnabled = true) :
    ∃ msg, send settings smtpAccepts toAddr subject html =
      some (if smtpAccepts then [msg] else []) := by
  unfold send
  rw [if_pos henabled]
  cases smtpAccepts with
  | false => exact ⟨⟨[], [], [], []⟩, rfl⟩
  | true => exact ⟨_, rfl⟩

theorem sendTemplate_eq {name : String} {context : TemplateContext} {toAddr subject : List Char}
    (henabled : settings.emailsEnabled = true) :
    a.templates name = .unreadable ∧ sendTemplate settings a name context toAddr subject = none ∨
    a.templates name ≠ .unreadable ∧ ∃ msg, sendTemplate settings a name context toAddr subject =
      some (if a.smtpAccepts then [msg] else []) := by
  by_cases hread : a.templates name = .unreadable
  · left
    have hload : loadTemplate a.templates name context = none := loadTemplate_eq_none.mpr hread
    refine ⟨hread, ?_⟩
    rw [sendTemplate, hload]
    rfl
  · right
    have hload : loadTemplate a.templates name context ≠ none :=
      fun hnone => hread (loadTemplate_eq_none.mp hnone)
    obtain ⟨html, hhtml⟩ := Option.ne_none_iff_exists'.mp hload
    refine ⟨hread, ?_⟩
    rw [sendTemplate, hhtml]
    exact send_eq henabled

/-- An attempt raises exactly when the template cannot be read. -/
theorem body_eq (henabled : settings.emailsEnabled = true) (t : EmailTask) :
    ¬t.Readable a ∧ t.body settings a = none ∨
    t.Readable a ∧ ∃ msg, t.body settings a = some (if a.smtpAccepts then [msg] else []) := by
  cases ht : t.template with
  | none =>
    right
    refine ⟨fun name hname => ?_, ?_⟩
    · rw [ht] at hname
      cases hname
    · cases t with
      | email toAddr subject html => exact send_eq henabled
      | _ => cases ht
  | some name =>
    have hreadable : t.Readable a ↔ a.templates name ≠ .unreadable := by
      unfold EmailTask.Readable
      rw [ht]
      exact ⟨fun h => h name rfl, fun h name' hname => by rwa [← Option.some_inj.mp hname]⟩
    rw [hreadable, not_not]
    cases t with
    | email toAddr subject html => cases ht
    | _ =>
      cases ht
      exact sendTemplate_eq henabled

theorem body_eq_none (henabled : settings.emailsEnabled = true) {t : EmailTask} :
    t.body settings a = none ↔ ¬t.Readable a := by
  rcases body_eq henabled t with ⟨hread, hbody⟩ | ⟨hread, msg, hbody⟩
  · exact iff_of_true hbody hread
  · rw [hbody]
    exact iff_of_false (Option.some_ne_none _) (not_not.mpr hread)

theorem delivers_iff (henabled : settings.emailsEnabled = true) {t : EmailTask} :
    t.Delivers settings a ↔ t.Readable a ∧ a.smtpAccepts = true := by
  unfold EmailTask.Delivers
  rcases body_eq henabled t with ⟨hread, hbody⟩ | ⟨hread, msg, hbody⟩
  · rw [hbody]
    refine iff_of_false ?_ fun h => hread h.1
    rintro ⟨msg, hmsg⟩
    cases hmsg
  · rw [hbody]
    cases hsmtp : a.smtpAccepts with
    | true => exact iff_of_true ⟨msg, rfl⟩ ⟨hread, rfl⟩
    | false =>
      refine iff_of_false ?_ fun h => Bool.noConfusion h.2
      rintro ⟨msg', hmsg⟩
      cases hmsg

/-! ### Retries -/

/-- A task reported as successful has delivered, and one that never delivers is
attempted once and `max_retries` times more, then reported as failed. -/
structure Retried (worker : RetryWorker (List Message)) (settings : MailSettings)
    (attempts : ℕ → Attempt) (t : EmailTask) : Prop where
  delivered : (t.report worker settings attempts).result ≠ none →
    ∃ n < (t.report worker settings attempts).attempts, t.Delivers settings (attempts n)
  exhausted : (∀ n, ¬t.Delivers settings (attempts n)) →
    (t.report worker settings attempts).result = none ∧
    (t.report worker settings attempts).attempts = 1 + emailMaxRetries

/-- The first attempt that gets as far as the SMTP server succeeds there. -/
def FirstSendAccepted (attempts : ℕ → Attempt) (t : EmailTask) : Prop :=
  ∀ n ≤ emailMaxRetries, (∀ j < n, ¬t.Readable (attempts j)) → t.Readable (attempts n) →
    (attempts n).smtpAccepts = true

theorem firstSendAccepted_iff {attempts : ℕ → Attempt} {t : EmailTask} {k : ℕ}
    (hk : k ≤ emailMaxRetries) (hunread : ∀ j < k, ¬t.Readable (attempts j))
    (hread : t.Readable (attempts k)) :
    FirstSendAccepted attempts t ↔ (attempts k).smtpAccepts = true := by
  constructor
  · exact fun h => h k hk hunread hread
  · intro h n hn hbefore hread'
    have hsame : n = k := by
      rcases lt_trichotomy n k with hlt | heq | hgt
      · exact absurd hread' (hunread n hlt)
      · exact heq
      · exact absurd hread (hbefore k hgt)
    rw [hsame]
    exact h

theorem retried_iff_of_returned {worker : RetryWorker (List Message)} {attempts : ℕ → Attempt}
    {t : EmailTask} (henabled : settings.emailsEnabled = true) {k : ℕ} {sent : List Message}
    (hreport : t.report worker settings attempts = ⟨some sent, k + 1⟩)
    (hunread : ∀ j < k, ¬t.Readable (attempts j)) (hread : t.Readable (attempts k)) :
    Retried worker settings attempts t ↔ (attempts k).smtpAccepts = true := by
  constructor
  · intro h
    have hsome : (t.report worker settings attempts).result ≠ none := by
      rw [hreport]
      exact Option.some_ne_none sent
    obtain ⟨m, hm, hdelivers⟩ := h.delivered hsome
    rw [hreport] at hm
    have hboth := (delivers_iff henabled).mp hdelivers
    rcases Nat.lt_succ_iff_lt_or_eq.mp hm with hlt | rfl
    · exact absurd hboth.1 (hunread m hlt)
    · exact hboth.2
  · intro h
    have hdelivers : t.Delivers settings (attempts k) := (delivers_iff henabled).mpr ⟨hread, h⟩
    refine ⟨fun _ => ⟨k, ?_, hdelivers⟩, fun hnever => absurd hdelivers (hnever k)⟩
    rw [hreport]
    exact Nat.lt_succ_self k

theorem retried_iff (worker : RetryWorker (List Message)) (attempts : ℕ → Attempt) (t : EmailTask)
    (henabled : settings.emailsEnabled = true) :
    Retried worker settings attempts t ↔ FirstSendAccepted attempts t := by
  rcases worker.work_cases emailMaxRetries fun n => t.body settings (attempts n) with
    ⟨k, sent, hk, hbefore, hsent, hwork⟩ | ⟨hnone, hwork⟩
  · have hunread : ∀ j < k, ¬t.Readable (attempts j) :=
      fun j hj => (body_eq_none henabled).mp (hbefore j hj)
    have hread : t.Readable (attempts k) := by
      by_contra hno
      rw [(body_eq_none henabled).mpr hno] at hsent
      cases hsent
    rw [firstSendAccepted_iff hk hunread hread]
    exact retried_iff_of_returned henabled hwork hunread hread
  · -- no template could be read: four attempts, and none of them sends
    have hunread : ∀ j ≤ emailMaxRetries, ¬t.Readable (attempts j) :=
      fun j hj => (body_eq_none henabled).mp (hnone j hj)
    refine iff_of_true ⟨?_, ?_⟩ fun n hn _ hread => absurd hread (hunread n hn)
    · intro hsome
      rw [EmailTask.report, hwork] at hsome
      exact absurd rfl hsome
    · intro _
      rw [EmailTask.report, hwork]
      exact ⟨rfl, Nat.add_comm emailMaxRetries 1⟩

def sampleMail : MailSettings where
  emailsEnabled := true
  emailFromName := "allStay".toList
  emailFrom := "noreply@allstay.uz".toList
  frontendUrl := "https://allstay.uz".toList
  appName := "allStay".toList

def serverDown : Attempt where
  templates := fun _ => .html "Hello".toList
  smtpAccepts := false

/-- The template is unreadable first, and the second attempt delivers. -/
theorem retried_second_attempt : Retried (loopWorker _) sampleMail
    (fun n => ⟨fun _ => if n = 0 then .unreadable else .html "Hello".toList, true⟩)
    (.welcome "ann@example.com".toList "Ann".toList) :=
  (retried_iff _ _ _ rfl).mpr fun _ _ _ _ => rfl

/-- The server never takes the message, and the one attempt counts as a success. -/
theorem not_retried_server_down : ¬Retried (loopWorker _) sampleMail (fun _ => serverDown)
    (.welcome "ann@example.com".toList "Ann".toList) := by
  intro h
  obtain ⟨n, _, msg, hmsg⟩ := h.delivered (Option.some_ne_none _)
  cases hmsg

end HotelMs
