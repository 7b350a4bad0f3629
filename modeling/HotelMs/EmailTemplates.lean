import HotelMs.Lib.Templates
import HotelMs.Lib.Numerals

/-!
# E-mail templates (`_load_template` in `app/services/email.py`)

The keys of a context are replaced one after the other, each in the whole text
that the keys before it have left.
-/

namespace HotelMs

open Templates Numerals

structure ContextKey where
  name : List Char
  plain : (name.all fun c => c != '{' && c != '}') = true
  deriving DecidableEq

inductive ContextValue
  | text (s : List Char)
  | int (i : ℤ)

def ContextValue.str : ContextValue → List Char
  | .text s => s
  | .int i => intText i

/-- A `dict` that a task builds: its keys are literals of the source, each once. -/
structure TemplateContext where
  items : List (ContextKey × ContextValue)
  nodup : (items.map Prod.fst).Nodup

def TemplateContext.texts (context : TemplateContext) : List (ContextKey × List Char) :=
  context.items.map fun p => (p.1, p.2.str)

/-- What stands under the name in `_TEMPLATES_DIR`. -/
inductive TemplateFile
  | missing
  | unreadable
  | html (text : List Char)

def placeholder (key : ContextKey) : List Char := '{' :: '{' :: (key.name ++ ['}', '}'])

/-- `none` is an exception of `read_text`. -/
def loadTemplate (templates : String → TemplateFile) (name : String)
    (context : TemplateContext) : Option (List Char) :=
  match templates name with
  | .missing => some (['\n'].intercalate
      (context.items.map fun p => p.1.name ++ ": ".toList ++ p.2.str))
  | .unreadable => none
  | .html text => some (context.items.foldl
      (fun html p => replaceText (placeholder p.1) p.2.str html) text)

/-! ### Placeholders stand apart -/

theorem ContextKey.ne_brace (key : ContextKey) {c : Char} (h : c ∈ key.name) :
    c ≠ '{' ∧ c ≠ '}' := by
  have hplain := List.all_eq_true.mp key.plain c h
  rw [Bool.and_eq_true, bne_iff_ne, bne_iff_ne] at hplain
  exact hplain

theorem eq_of_braced_prefix {x y rest : List Char} (hx : ∀ c ∈ x, c ≠ '}')
    (hy : ∀ c ∈ y, c ≠ '}') (h : x ++ ['}', '}'] <+: y ++ ['}', '}'] ++ rest) : x = y := by
  induction x generalizing y with
  | nil =>
    cases y with
    | nil => rfl
    | cons b y =>
      have hb := (List.cons_prefix_cons.mp h).1
      exact absurd hb.symm (hy b List.mem_cons_self)
  | cons a x ih =>
    cases y with
    | nil =>
      have ha := (List.cons_prefix_cons.mp h).1
      exact absurd ha (hx a List.mem_cons_self)
    | cons b y =>
      obtain ⟨rfl, htail⟩ := List.cons_prefix_cons.mp h
      have hsame := ih (fun c hc => hx c (List.mem_cons_of_mem _ hc))
        (fun c hc => hy c (List.mem_cons_of_mem _ hc)) htail
      rw [hsame]

/-- Two opening braces stand at the beginning of a placeholder only. -/
theorem not_opening_of_drop {key : ContextKey} {j : ℕ} {c d : Char} {text rest : List Char}
    (hj : 0 < j) (hlt : j < (placeholder key).length)
    (h : (placeholder key).drop j ++ rest = c :: d :: text) : ¬(c = '{' ∧ d = '{') := by
  rintro ⟨rfl, rfl⟩
  have hinner : ∀ e ∈ key.name ++ ['}', '}'], e ≠ '{' := by
    intro e he
    rcases List.mem_append.mp he with he | he
    · exact (key.ne_brace he).1
    · rcases List.mem_cons.mp he with rfl | he
      · decide
      · rw [List.mem_singleton.mp he]
        decide
  obtain ⟨e, inner, hsplit⟩ := List.exists_cons_of_ne_nil
    (List.append_ne_nil_of_right_ne_nil key.name (List.cons_ne_nil '}' ['}']))
  have he : e ≠ '{' := hinner e (hsplit ▸ List.mem_cons_self)
  obtain ⟨i, rfl⟩ := Nat.exists_eq_succ_of_ne_zero (Nat.pos_iff_ne_zero.mp hj)
  cases i with
  | zero =>
    rw [placeholder, hsplit] at h
    have hd : e = '{' := (List.cons.inj (List.cons.inj h).2).1
    exact he hd
  | succ i =>
    have hlength : i < (key.name ++ ['}', '}']).length := by
      simp only [placeholder, List.length_cons] at hlt
      omega
    have hdrop : (placeholder key).drop (i + 1 + 1) = (key.name ++ ['}', '}']).drop i := rfl
    rw [hdrop, List.drop_eq_getElem_cons hlength] at h
    have hfirst := (List.cons.inj h).1
    exact hinner _ (List.getElem_mem hlength) hfirst

theorem separate_placeholder : Separate placeholder where
  ne_nil _ := List.cons_ne_nil _ _
  apart k k' j rest hlt h := by
    have hzero : j = 0 := by
      by_contra hne
      obtain ⟨more, hmore⟩ := h
      have hopen : (placeholder k).drop j ++ rest =
          '{' :: '{' :: (k'.name ++ ['}', '}'] ++ more) := hmore.symm
      exact not_opening_of_drop (Nat.pos_of_ne_zero hne) hlt hopen ⟨rfl, rfl⟩
    subst hzero
    have hinner : k'.name ++ ['}', '}'] <+: k.name ++ ['}', '}'] ++ rest :=
      (List.cons_prefix_cons.mp (List.cons_prefix_cons.mp h).2).2
    have hname := eq_of_braced_prefix (fun c hc => (k'.ne_brace hc).2)
      (fun c hc => (k.ne_brace hc).2) hinner
    refine ⟨rfl, ?_⟩
    cases k
    cases k'
    cases hname
    rfl

/-! ### One key after the other -/

theorem keys_texts (context : TemplateContext) :
    context.texts.map Prod.fst = context.items.map Prod.fst := by
  rw [TemplateContext.texts, List.map_map]
  rfl

theorem loadTemplate_html {templates : String → TemplateFile} {name : String} {html : List Char}
    (h : templates name = .html html) (context : TemplateContext) :
    loadTemplate templates name context =
      some (replaceEach placeholder context.texts html) := by
  rw [loadTemplate, h, replaceEach, TemplateContext.texts, List.foldl_map]

/-- Whatever the order of the keys: the result is the template with every slot
filled at once, and each key's turn replaces the slots of the template and
nothing that a value has brought in. -/
def FillsAtOnce (templates : String → TemplateFile) (name : String) (html : List Char)
    (context : TemplateContext) : Prop :=
  ∀ order : TemplateContext, order.items.Perm context.items →
    loadTemplate templates name order = some (fill placeholder context.texts html) ∧
    ReplacesMarks placeholder order.texts html

theorem loadTemplate_fillsAtOnce_iff {templates : String → TemplateFile} {name : String}
    {html : List Char} (h : templates name = .html html) (context : TemplateContext) :
    FillsAtOnce templates name html context ↔
      ∀ order : TemplateContext, order.items.Perm context.items →
        NoNewMarks placeholder order.texts html := by
  have hiff : ∀ order : TemplateContext, order.items.Perm context.items →
      (loadTemplate templates name order = some (fill placeholder context.texts html) ∧
        ReplacesMarks placeholder order.texts html ↔
          NoNewMarks placeholder order.texts html) := by
    intro order horder
    have hnodup : (context.texts.map Prod.fst).Nodup := by
      rw [keys_texts]
      exact context.nodup
    have hnodup' : (order.texts.map Prod.fst).Nodup := by
      rw [keys_texts]
      exact order.nodup
    have hperm : order.texts.Perm context.texts := horder.map _
    rw [loadTemplate_html h, Option.some_inj, ← fill_perm separate_placeholder hnodup hperm]
    exact replaceEach_iff separate_placeholder hnodup'
  constructor
  · exact fun hfills order horder => (hiff order horder).mp (hfills order horder)
  · exact fun hno order horder => (hiff order horder).mpr (hno order horder)

def fullNameKey : ContextKey := ⟨"full_name".toList, by decide⟩

def resetUrlKey : ContextKey := ⟨"reset_url".toList, by decide⟩

theorem nodup_resetKeys : [fullNameKey, resetUrlKey].Nodup := by decide

def welcomeContext (fullName : List Char) : TemplateContext where
  items := [(fullNameKey, .text fullName)]
  nodup := List.nodup_singleton fullNameKey

def resetContext (fullName resetUrl : List Char) : TemplateContext where
  items := [(fullNameKey, .text fullName), (resetUrlKey, .text resetUrl)]
  nodup := nodup_resetKeys

/-- A single key has no value filled in before its turn. -/
theorem noNewMarks_welcome (fullName html : List Char) {order : TemplateContext}
    (h : order.items.Perm (welcomeContext fullName).items) :
    NoNewMarks placeholder order.texts html := by
  have hitems : order.items = [(fullNameKey, .text fullName)] := List.perm_singleton.mp h
  intro front k v back heq
  rw [TemplateContext.texts, hitems] at heq
  have hfront : front = [] := by
    cases front with
    | nil => rfl
    | cons p front =>
      have htail := (List.cons.inj heq).2
      exact absurd htail.symm (List.append_ne_nil_of_right_ne_nil front (List.cons_ne_nil _ _))
  rw [hfront, fill_nil separate_placeholder]

theorem fillsAtOnce_welcome : FillsAtOnce (fun _ => .html "Hi \x7b\x7bfull_name\x7d\x7d".toList)
    "welcome_email.html" "Hi \x7b\x7bfull_name\x7d\x7d".toList
    (welcomeContext "\x7b\x7bfull_name\x7d\x7d".toList) :=
  (loadTemplate_fillsAtOnce_iff rfl _).mpr fun _ h => noNewMarks_welcome _ _ h

/-- A guest whose name is the placeholder of the link gets the link for a name. -/
theorem name_is_expanded :
    ¬FillsAtOnce (fun _ => .html "\x7b\x7bfull_name\x7d\x7d: \x7b\x7breset_url\x7d\x7d".toList)
      "password_reset.html" "\x7b\x7bfull_name\x7d\x7d: \x7b\x7breset_url\x7d\x7d".toList
      (resetContext "\x7b\x7breset_url\x7d\x7d".toList "/reset-password".toList) := by
  intro h
  have hload := (h _ (List.Perm.refl _)).1
  revert hload
  decide

end HotelMs
