import CallGate.Text.Term
import CallGate.Proofs.Quoted

/-!
# The text of a term tells the term

A term begins with a word, or with a quote or a bracket; what comes after the word says what kind of
term it is; and what is inside ends with a bracket, or before the comma that sets parts apart. So a
term comes off the front of a text in one way only, whatever its quoted parts look like.

- `Term.isNameChar`, `Term.IsName`: what bare words in a term consist of.
- `Term.Legible`: all bare words in a term are such words.
- `Term.Closes`: what may come after a term.
- `Term.shape`, `Term.shapeOf`, `Term.shapeOf_body`: the kinds of terms, by what comes after the word.
- `Term.row_append_inj`: parts set apart by commas come off the front one by one.
- `Term.Legible.chars_append_inj`, `Term.Legible.eq_of_text`: so do terms, and no two have the same
  text.
-/

namespace CallGate.Term

/-! ## Words -/

/-- What bare words consist of: all but blanks, brackets, quotes and the marks between parts. -/
def isNameChar (c : Char) : Bool :=
  [' ', ',', ':', '"', '(', ')', '[', ']', '\x7b', '\x7d'].all (· ≠ c)

/-- A bare word. -/
def IsName (name : String) : Prop :=
  name.toList ≠ [] ∧ name.toList.all isNameChar

instance : DecidablePred IsName := fun _ => inferInstanceAs (Decidable (_ ∧ _))

/-- All bare words in a term can be told from what is around them. -/
inductive Legible : Term → Prop where
  | word {text : String} (h : IsName text) : Legible (.word text)
  | quoted (text : String) : Legible (.quoted text)
  | applied {head : String} {argument : Term} (hhead : IsName head) (h : Legible argument) :
    Legible (.applied head argument)
  | record {head : String} {fields : List (String × Term)} (hhead : IsName head)
    (hnames : ∀ field ∈ fields, IsName field.1) (h : ∀ field ∈ fields, Legible field.2) :
    Legible (.record head fields)
  | list {items : List Term} (h : ∀ item ∈ items, Legible item) : Legible (.list items)
  | map {entries : List (String × Term)} (h : ∀ entry ∈ entries, Legible entry.2) :
    Legible (.map entries)

@[simp] theorem legible_quoted (text : String) : (quoted text).Legible :=
  .quoted text

/-- A record can be read if its names are bare words and its terms can be read. -/
theorem legible_record {head : String} {fields : List (String × Term)} (names : List String)
    (hnames : fields.map Prod.fst = names) (hwords : ∀ name ∈ head :: names, IsName name)
    (h : ∀ term ∈ fields.map Prod.snd, Legible term) : (record head fields).Legible := by
  obtain ⟨hhead, hothers⟩ := List.forall_mem_cons.mp hwords
  rw [← hnames] at hothers
  exact .record hhead (List.forall_mem_map.mp hothers) (List.forall_mem_map.mp h)

/-- What may come after a term: nothing, the mark before another part, or what closes a term. -/
def Closes : List Char → Prop
  | [] => True
  | ' ' :: c :: _ => c = '\x7d'
  | c :: _ => c = ',' ∨ c = ')' ∨ c = ']' ∨ c = '\x7d'

/-! ## Shapes -/

/-- The kinds of terms. -/
inductive Shape where
  | word
  | quoted
  | applied
  | record
  | list
  | map

/-- The kind of a term. -/
def shape : Term → Shape
  | .word _ => .word
  | .quoted _ => .quoted
  | .applied .. => .applied
  | .record .. => .record
  | .list _ => .list
  | .map _ => .map

/-- The kind of a term by what comes after the word with which it begins. -/
def shapeOf : List Char → Shape
  | '"' :: _ => .quoted
  | '(' :: _ => .applied
  | ' ' :: '\x7b' :: _ => .record
  | '[' :: _ => .list
  | '\x7b' :: _ => .map
  | _ => .word

/-- The word with which a term begins, which may be empty. -/
def head : Term → List Char
  | .word text => text.toList
  | .applied head _ | .record head _ => head.toList
  | _ => []

/-- What comes after that word. -/
def body : Term → List Char
  | .word _ => []
  | .quoted text => Text.Quoted.encode text.toList
  | .applied _ argument => '(' :: argument.chars ++ [')']
  | .record _ fields => ' ' :: '\x7b' :: ' ' :: fieldChars fields ++ [' ', '\x7d']
  | .list items => '[' :: itemChars items ++ [']']
  | .map entries => '\x7b' :: entryChars entries ++ ['\x7d']

theorem chars_eq (term : Term) : term.chars = term.head ++ term.body := by
  cases term <;> simp [chars, head, body]

/-- The word with which a term begins is a bare one, perhaps empty. -/
theorem isNameChar_of_mem_head {term : Term} (h : term.Legible) :
    ∀ c ∈ term.head, isNameChar c = true := by
  cases h with
  | word hword => exact List.all_eq_true.mp hword.2
  | applied hhead => exact List.all_eq_true.mp hhead.2
  | record hhead => exact List.all_eq_true.mp hhead.2
  | _ => nofun

variable {rest rest' : List Char}

/-- What may come after a term is not more of a word. -/
theorem Closes.stop (h : Closes rest) : ∀ c ∈ rest.head?, isNameChar c = false := by
  cases rest with
  | nil => nofun
  | cons c more =>
    rintro _ ⟨⟩
    unfold Closes at h
    split at h
    case h_1 heq => cases heq
    -- a blank only before a closing brace
    case h_2 heq =>
      cases heq
      decide
    case h_3 heq =>
      cases heq
      rcases h with rfl | rfl | rfl | rfl <;> decide

/-- What comes after the word of a term is not more of the word. -/
theorem body_stop (term : Term) (h : Closes rest) :
    ∀ c ∈ (term.body ++ rest).head?, isNameChar c = false := by
  cases term with
  | word text => exact h.stop
  -- every other body begins with a bracket, a quote or a blank
  | _ =>
    rintro c ⟨⟩
    decide

/-- The kind of a term can be told from what comes after its word. -/
theorem shapeOf_body (term : Term) (h : Closes rest) : shapeOf (term.body ++ rest) = term.shape := by
  cases term with
  | word text =>
    -- a word has no body, so what may come after a term must not look like one
    show shapeOf rest = .word
    unfold Closes at h
    split at h
    case h_1 => rfl
    case h_2 =>
      rw [h]
      rfl
    case h_3 =>
      rcases h with rfl | rfl | rfl | rfl <;> rfl
  | _ => rfl

/-- Equal texts that begin with terms begin with the same word, and terms of the same kind. -/
theorem shape_of_append_eq {s t : Term} (hs : s.Legible) (ht : t.Legible) (hrest : Closes rest)
    (hrest' : Closes rest') (h : s.chars ++ rest = t.chars ++ rest') :
    s.head = t.head ∧ s.shape = t.shape ∧ s.body ++ rest = t.body ++ rest' := by
  rw [chars_eq, chars_eq, List.append_assoc, List.append_assoc] at h
  obtain ⟨hhead, hbody⟩ := Text.append_inj_of_stop (isNameChar_of_mem_head hs)
    (isNameChar_of_mem_head ht) (body_stop s hrest) (body_stop t hrest') h
  refine ⟨hhead, ?_, hbody⟩
  rw [← shapeOf_body s hrest, hbody, shapeOf_body t hrest']

/-- With what a part of a term begins. -/
def begins (c : Char) : Bool :=
  isNameChar c || c = '"' || c = '[' || c = '{'

/-- A bare word begins with one of its characters. -/
theorem IsName.begins {name : String} (h : IsName name) :
    ∃ c more, name.toList = c :: more ∧ begins c = true := by
  obtain ⟨c, more, hname⟩ := List.exists_cons_of_ne_nil h.1
  have hc : isNameChar c = true := List.all_eq_true.mp h.2 c (by rw [hname]; exact List.mem_cons_self)
  exact ⟨c, more, hname, by rw [Term.begins, hc]; rfl⟩

/-- So does every term: with a word, a quote or a bracket. -/
theorem Legible.begins {term : Term} (h : term.Legible) :
    ∃ c more, term.chars = c :: more ∧ begins c = true := by
  cases h with
  | word hname => exact hname.begins
  | quoted text => exact ⟨_, _, rfl, by decide⟩
  | applied hhead =>
    obtain ⟨c, more, hname, hc⟩ := hhead.begins
    exact ⟨c, _, by rw [chars, hname]; rfl, hc⟩
  | record hhead =>
    obtain ⟨c, more, hname, hc⟩ := hhead.begins
    exact ⟨c, _, by rw [chars, hname]; rfl, hc⟩
  | list => exact ⟨_, _, rfl, by decide⟩
  | map => exact ⟨_, _, rfl, by decide⟩

/-! ## Rows -/

section

variable {α : Type}

/-- Parts set apart by a comma and a blank. -/
def row (write : α → List Char) : List α → List Char
  | [] => []
  | x :: others => write x ++ others.flatMap fun y => ',' :: ' ' :: write y

/-- With what a row ends. -/
def IsStop (stop : List Char) : Prop :=
  stop = [']'] ∨ stop = ['}'] ∨ stop = [' ', '}']

theorem IsStop.closes {stop : List Char} (h : IsStop stop) (rest : List Char) :
    Closes (stop ++ rest) := by
  rcases h with rfl | rfl | rfl <;> simp [Closes]

/-- No part begins with the end of its row, nor does the mark between parts. -/
theorem IsStop.head {stop : List Char} (h : IsStop stop) :
    ∃ c more, stop = c :: more ∧ begins c = false ∧ c ≠ ',' := by
  rcases h with rfl | rfl | rfl <;> exact ⟨_, _, rfl, by decide, by decide⟩

variable {write : α → List Char} {good : α → Prop} {stop : List Char} {xs ys : List α}

/-- What comes after a part of a row may come after a term. -/
theorem closes_further (hstop : IsStop stop) (xs : List α) (rest : List Char) :
    Closes ((xs.flatMap fun x => ',' :: ' ' :: write x) ++ (stop ++ rest)) := by
  cases xs with
  | nil => exact hstop.closes rest
  | cons x others => exact .inl rfl

/-- The parts after the first come off the front one by one, if each of them does. -/
theorem further_append_inj (hstop : IsStop stop) (hys : ∀ y ∈ ys, good y)
    (hinj : ∀ x ∈ xs, ∀ y, good y → ∀ {rest rest' : List Char}, Closes rest → Closes rest' →
      write x ++ rest = write y ++ rest' → x = y ∧ rest = rest')
    (h : (xs.flatMap fun x => ',' :: ' ' :: write x) ++ (stop ++ rest) =
      (ys.flatMap fun y => ',' :: ' ' :: write y) ++ (stop ++ rest')) :
    xs = ys ∧ rest = rest' := by
  obtain ⟨c, more, hhead, -, hcomma⟩ := hstop.head
  induction xs generalizing ys with
  | nil =>
    cases ys with
    | nil => exact ⟨rfl, List.append_cancel_left h⟩
    | cons y others =>
      rw [hhead] at h
      -- one row ends where the other goes on with a comma
      exact absurd (List.cons.inj h).1 hcomma
  | cons x others ih =>
    cases ys with
    | nil =>
      rw [hhead] at h
      exact absurd (List.cons.inj h).1.symm hcomma
    | cons y others' =>
      obtain ⟨hy, hothers'⟩ := List.forall_mem_cons.mp hys
      simp only [List.flatMap_cons, List.cons_append, List.append_assoc, List.cons.injEq,
        true_and] at h
      -- the first part comes off both, and the rest is the same question for fewer parts
      obtain ⟨rfl, hrest⟩ := hinj x List.mem_cons_self y hy (closes_further hstop others rest)
        (closes_further hstop others' rest') h
      obtain ⟨rfl, hrests⟩ := ih hothers' (fun z hz => hinj z (List.mem_cons_of_mem _ hz)) hrest
      exact ⟨rfl, hrests⟩

/-- So do all parts of a row. -/
theorem row_append_inj (hstop : IsStop stop) (hxs : ∀ x ∈ xs, good x) (hys : ∀ y ∈ ys, good y)
    (hbegins : ∀ x, good x → ∃ c more, write x = c :: more ∧ begins c = true)
    (hinj : ∀ x ∈ xs, ∀ y, good y → ∀ {rest rest' : List Char}, Closes rest → Closes rest' →
      write x ++ rest = write y ++ rest' → x = y ∧ rest = rest')
    (h : row write xs ++ (stop ++ rest) = row write ys ++ (stop ++ rest')) :
    xs = ys ∧ rest = rest' := by
  obtain ⟨c, more, hhead, hc, -⟩ := hstop.head
  -- a row that ends at once has no part
  have hempty {x : α} (hx : good x) {others rest rest' : List Char} :
      (write x ++ others) ++ rest ≠ stop ++ rest' := by
    obtain ⟨d, further, hwrite, hd⟩ := hbegins x hx
    rw [hwrite, hhead]
    intro heq
    rw [(List.cons.inj heq).1, hc] at hd
    cases hd
  cases xs with
  | nil =>
    cases ys with
    | nil => exact ⟨rfl, List.append_cancel_left h⟩
    | cons y others => exact absurd h.symm (hempty (hys y List.mem_cons_self))
  | cons x others =>
    cases ys with
    | nil => exact absurd h (hempty (hxs x List.mem_cons_self))
    | cons y others' =>
      obtain ⟨hy, hothers'⟩ := List.forall_mem_cons.mp hys
      -- both rows have a first part, which has no comma before it
      simp only [row, List.append_assoc] at h
      obtain ⟨rfl, hrest⟩ := hinj x List.mem_cons_self y hy (closes_further hstop others rest)
        (closes_further hstop others' rest') h
      obtain ⟨rfl, hrests⟩ := further_append_inj hstop hothers'
        (fun z hz => hinj z (List.mem_cons_of_mem _ hz)) hrest
      exact ⟨rfl, hrests⟩

end

/-! ## Lists, records and maps are rows -/

/-- A field of a record. -/
def writeField (field : String × Term) : List Char :=
  field.1.toList ++ ':' :: ' ' :: field.2.chars

/-- An entry of a map. -/
def writeEntry (entry : String × Term) : List Char :=
  Text.Quoted.encode entry.1.toList ++ ':' :: ' ' :: entry.2.chars

/-- The items of a list are a row of terms. -/
theorem itemChars_eq (items : List Term) : itemChars items = row chars items := by
  induction items with
  | nil => rfl
  | cons item others ih =>
    cases others with
    | nil => simp [itemChars, row]
    | cons second rest =>
      rw [itemChars, ih]
      · simp [row]
      · nofun

theorem fieldChars_eq (fields : List (String × Term)) : fieldChars fields = row writeField fields := by
  induction fields with
  | nil => rfl
  | cons field others ih =>
    cases others with
    | nil => simp [fieldChars, row, writeField]
    | cons second rest =>
      rw [fieldChars, ih]
      · simp [row, writeField]
      · nofun

theorem entryChars_eq (entries : List (String × Term)) :
    entryChars entries = row writeEntry entries := by
  induction entries with
  | nil => rfl
  | cons entry others ih =>
    cases others with
    | nil => simp [entryChars, row, writeEntry]
    | cons second rest =>
      rw [entryChars, ih]
      · simp [row, writeEntry]
      · nofun

theorem writeField_begins {field : String × Term} (h : IsName field.1) :
    ∃ c more, writeField field = c :: more ∧ begins c = true := by
  obtain ⟨c, more, hname, hc⟩ := h.begins
  exact ⟨c, _, by rw [writeField, hname]; rfl, hc⟩

theorem writeEntry_begins (entry : String × Term) :
    ∃ c more, writeEntry entry = c :: more ∧ begins c = true :=
  ⟨_, _, rfl, by decide⟩

/-- A field comes off the front: its name ends at the colon, and then its term comes off. -/
theorem writeField_append_inj {field field' : String × Term} (hname : IsName field.1)
    (hname' : IsName field'.1) (hterm : ∀ {rest rest' : List Char}, Closes rest → Closes rest' →
      field.2.chars ++ rest = field'.2.chars ++ rest' → field.2 = field'.2 ∧ rest = rest')
    (hrest : Closes rest) (hrest' : Closes rest')
    (h : writeField field ++ rest = writeField field' ++ rest') : field = field' ∧ rest = rest' := by
  have hcolon (more : List Char) : ∀ c ∈ (':' :: more).head?, isNameChar c = false := by
    rintro c ⟨⟩
    decide
  simp only [writeField, List.append_assoc, List.cons_append] at h
  obtain ⟨hfirst, hmore⟩ := Text.append_inj_of_stop (List.all_eq_true.mp hname.2)
    (List.all_eq_true.mp hname'.2) (hcolon _) (hcolon _) h
  simp only [List.cons.injEq, true_and] at hmore
  obtain ⟨hsecond, hrests⟩ := hterm hrest hrest' hmore
  exact ⟨Prod.ext (String.toList_inj.mp hfirst) hsecond, hrests⟩

/-- So does an entry, whose name is quoted. -/
theorem writeEntry_append_inj {entry entry' : String × Term}
    (hterm : ∀ {rest rest' : List Char}, Closes rest → Closes rest' →
      entry.2.chars ++ rest = entry'.2.chars ++ rest' → entry.2 = entry'.2 ∧ rest = rest')
    (hrest : Closes rest) (hrest' : Closes rest')
    (h : writeEntry entry ++ rest = writeEntry entry' ++ rest') : entry = entry' ∧ rest = rest' := by
  simp only [writeEntry, List.append_assoc, List.cons_append] at h
  obtain ⟨hfirst, hmore⟩ := Text.Quoted.encode_append_inj h
  simp only [List.cons.injEq, true_and] at hmore
  obtain ⟨hsecond, hrests⟩ := hterm hrest hrest' hmore
  exact ⟨Prod.ext (String.toList_inj.mp hfirst) hsecond, hrests⟩

/-! ## Terms -/

/-- Equal texts that begin with terms begin with the same one. The induction is on the first term,
for all terms that the second one could be and for all that may come after them. -/
theorem Legible.chars_append_inj {s t : Term} (hs : s.Legible) (ht : t.Legible)
    (hrest : Closes rest) (hrest' : Closes rest') (h : s.chars ++ rest = t.chars ++ rest') :
    s = t ∧ rest = rest' := by
  induction hs generalizing t rest rest' with
  | word hword =>
    -- in each case the kind of the second term is known first, and then the bodies are compared
    obtain ⟨hhead, hshape, hbody⟩ := shape_of_append_eq (.word hword) ht hrest hrest' h
    cases ht with
    | word hword' => exact ⟨congrArg Term.word (String.toList_inj.mp hhead), hbody⟩
    | _ => cases hshape
  | quoted text =>
    obtain ⟨-, hshape, hbody⟩ := shape_of_append_eq (.quoted text) ht hrest hrest' h
    cases ht with
    | quoted text' =>
      obtain ⟨htext, hrests⟩ := Text.Quoted.encode_append_inj hbody
      exact ⟨congrArg Term.quoted (String.toList_inj.mp htext), hrests⟩
    | _ => cases hshape
  | applied hname hargument ih =>
    obtain ⟨hhead, hshape, hbody⟩ :=
      shape_of_append_eq (.applied hname hargument) ht hrest hrest' h
    cases ht with
    | applied hname' hargument' =>
      simp only [body, List.cons_append, List.append_assoc, List.cons.injEq, true_and,
        List.nil_append] at hbody
      -- the argument ends at the bracket that closes it
      have hclose (more : List Char) : Closes (')' :: more) := .inr (.inl rfl)
      obtain ⟨rfl, hrests⟩ := ih hargument' (hclose _) (hclose _) hbody
      exact ⟨by rw [String.toList_inj.mp hhead], (List.cons.inj hrests).2⟩
    | _ => cases hshape
  | record hname hnames hfields ih =>
    obtain ⟨hhead, hshape, hbody⟩ :=
      shape_of_append_eq (.record hname hnames hfields) ht hrest hrest' h
    cases ht with
    | record hname' hnames' hfields' =>
      have hstop : IsStop [' ', '\x7d'] := .inr (.inr rfl)
      simp only [body, fieldChars_eq, List.cons_append, List.append_assoc, List.cons.injEq,
        true_and] at hbody
      obtain ⟨rfl, hrests⟩ := row_append_inj hstop
        (fun field hfield => And.intro (hnames field hfield) (hfields field hfield))
        (fun field hfield => And.intro (hnames' field hfield) (hfields' field hfield))
        (fun field hfield => writeField_begins hfield.1)
        (fun field hfield field' hfield' _ _ =>
          writeField_append_inj (hnames field hfield) hfield'.1 (ih field hfield hfield'.2))
        hbody
      exact ⟨by rw [String.toList_inj.mp hhead], hrests⟩
    | _ => cases hshape
  | list hitems ih =>
    obtain ⟨-, hshape, hbody⟩ := shape_of_append_eq (.list hitems) ht hrest hrest' h
    cases ht with
    | list hitems' =>
      have hstop : IsStop [']'] := .inl rfl
      simp only [body, itemChars_eq, List.cons_append, List.append_assoc, List.cons.injEq,
        true_and] at hbody
      obtain ⟨rfl, hrests⟩ := row_append_inj hstop hitems hitems' (fun _ hitem => hitem.begins)
        (fun item hitem _ hitem' _ _ => ih item hitem hitem') hbody
      exact ⟨rfl, hrests⟩
    | _ => cases hshape
  | map hentries ih =>
    obtain ⟨-, hshape, hbody⟩ := shape_of_append_eq (.map hentries) ht hrest hrest' h
    cases ht with
    | map hentries' =>
      have hstop : IsStop ['\x7d'] := .inr (.inl rfl)
      simp only [body, entryChars_eq, List.cons_append, List.append_assoc, List.cons.injEq,
        true_and] at hbody
      obtain ⟨rfl, hrests⟩ := row_append_inj hstop hentries hentries'
        (fun entry _ => writeEntry_begins entry)
        (fun entry hentry _ hentry' _ _ => writeEntry_append_inj (ih entry hentry hentry')) hbody
      exact ⟨rfl, hrests⟩
    | _ => cases hshape

/-- No two terms have the same text. -/
theorem Legible.eq_of_text {s t : Term} (hs : s.Legible) (ht : t.Legible) (h : s.text = t.text) :
    s = t := by
  have hchars : s.chars ++ [] = t.chars ++ [] := by
    rw [List.append_nil, List.append_nil]
    exact String.ofList_injective h
  have hend : Closes [] := trivial
  exact (hs.chars_append_inj ht hend hend hchars).1

end CallGate.Term
