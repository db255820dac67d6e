import CallGate.Proofs.Quoted
import CallGate.Proofs.Rejections

/-!
# Reports of rejections

What a host is told when its request is rejected. Reports put names of the catalogue in bare and
quote names that a host made up, so that these neither bring in characters that cannot be seen nor
imitate another report.

- `Text.isVisible`, `Text.isWord`: no character of a text is hidden, or all are letters and digits.
- `Text.word_append_inj`, `Text.quoted_append_inj`: words and quoted texts come off the front of a
  text in one way only, the words where no letter and no digit follows.
- `Fault.isVisible_message`: the report of a fault of the catalogue is visible.
- `Fault.kindOfReport_message`: the kind of such a fault can be told from its report. For each kind
  there is one lemma by which the details can be told too, as in `Fault.tooManyArguments_inj`.
- `Fault.eq_of_message_eq`: so no two of them have the same report.
- `Request.visible_of_serve`, `Request.fault_eq_of_message_eq`: the same of what any two requests
  are rejected for, with what this says of the names that their hosts made up.
-/

namespace CallGate

/-! ## Visible text and words -/

namespace Text

/-- No character of a text is hidden. -/
def isVisible (text : String) : Bool :=
  text.toList.all fun c => !isHidden c

/-- A text consists of letters and digits. -/
def isWord (text : String) : Bool :=
  text.toList.all Char.isAlphanum

/-- A text does not go on with a letter or a digit. -/
def endsWord : List Char → Bool
  | [] => true
  | c :: _ => !c.isAlphanum

theorem isVisible_iff {text : String} :
    isVisible text = true ↔ ∀ c ∈ text.toList, isHidden c = false := by
  simp [isVisible]

@[simp] theorem isVisible_append (x y : String) :
    isVisible (x ++ y) = (isVisible x && isVisible y) := by
  simp [isVisible]

/-- Quoting escapes whatever is hidden. -/
@[simp] theorem isVisible_quoted (text : String) : isVisible (quoted text) = true := by
  rw [isVisible_iff, quoted, String.toList_ofList]
  exact fun c hc => Quoted.isHidden_of_mem_encode hc

/-- Letters and digits can be seen. -/
theorem isVisible_of_isWord {text : String} (h : isWord text = true) : isVisible text = true := by
  have hascii : ∀ n : Fin 0x80, (Char.ofNat n).isAlphanum = true →
      isHidden (Char.ofNat n) = false := by decide
  rw [isVisible_iff]
  intro c hc
  have hword : c.isAlphanum = true := List.all_eq_true.mp h c hc
  -- the three ranges of letters and digits end inside ASCII, which is checked by itself
  have hlt : c.toNat < 0x80 := by
    have hranges : (decide ('A'.val ≤ c.val ∧ c.val ≤ 'Z'.val) ||
        (decide ('a'.val ≤ c.val) && decide (c.val ≤ 'z'.val)) ||
        (decide ('0'.val ≤ c.val) && decide (c.val ≤ '9'.val))) = true := hword
    simp only [Bool.or_eq_true, Bool.and_eq_true, decide_eq_true_eq,
      UInt32.le_iff_toNat_le] at hranges
    simp at hranges
    omega
  have := hascii ⟨c.toNat, hlt⟩
  rw [Char.ofNat_toNat] at this
  exact this hword

/-- A word does not open a quotation. -/
theorem quote_not_mem_of_isWord {text : String} (h : isWord text = true) : '"' ∉ text.toList := by
  intro hmem
  have hquote : Char.isAlphanum '"' = true := List.all_eq_true.mp h _ hmem
  exact absurd hquote (by decide)

/-- Characters by which a text could pass for another: controls, marks without width, turns of the
direction of writing, and characters for private use. They are ranges with both ends included. -/
def deceptiveRanges : List (Nat × Nat) := [
  (0x0, 0x1f), (0x7f, 0x7f), (0x80, 0x9f), (0x200b, 0x200f), (0x2028, 0x202e), (0x2060, 0x2064),
  (0x2066, 0x2069), (0xe000, 0xf8ff), (0xfeff, 0xfeff), (0xf0000, 0xffffd), (0x100000, 0x10fffd)]

/-- Such characters are hidden: of ASCII these are controls, and each other range lies inside one of
those that are hidden. -/
theorem isHidden_of_deceptive {c : Char} {range : Nat × Nat} (h : range ∈ deceptiveRanges)
    (hc : range.1 ≤ c.toNat ∧ c.toNat ≤ range.2) : isHidden c = true := by
  have hinside : ∀ range ∈ deceptiveRanges, range.2 < 0x20 ∨ range = (0x7f, 0x7f) ∨
      0x80 ≤ range.1 ∧ ∃ wider ∈ hiddenRanges, wider.1 ≤ range.1 ∧ range.2 ≤ wider.2 := by
    decide +kernel
  unfold isHidden
  rcases hinside range h with hcontrol | rfl | ⟨hbeyond, wider, hwider, hfirst, hlast⟩
  · rw [if_pos (by omega)]
    simp only [Bool.or_eq_true, decide_eq_true_eq]
    omega
  · rw [if_pos (by omega)]
    simp only [Bool.or_eq_true, decide_eq_true_eq]
    omega
  · rw [if_neg (by omega), List.any_eq_true]
    refine ⟨wider, hwider, ?_⟩
    simp only [Bool.and_eq_true, decide_eq_true_eq]
    omega

/-- Equal texts that begin with words begin with the same one. -/
theorem word_append_inj {x y : String} (hx : isWord x = true) (hy : isWord y = true)
    {rest rest' : List Char} (hrest : endsWord rest = true) (hrest' : endsWord rest' = true)
    (h : x.toList ++ rest = y.toList ++ rest') : x = y ∧ rest = rest' := by
  -- the first word ends where the rest begins, since the rest does not go on with a word
  have hstop : ∀ {rest : List Char}, endsWord rest = true →
      ∀ c ∈ rest.head?, c.isAlphanum = false := by
    intro rest hrest c hc
    cases rest with
    | nil => cases hc
    | cons d rest =>
      cases hc
      simpa [endsWord] using hrest
  obtain ⟨hword, hrests⟩ := append_inj_of_stop (List.all_eq_true.mp hx) (List.all_eq_true.mp hy)
    (hstop hrest) (hstop hrest') h
  exact ⟨String.toList_inj.mp hword, hrests⟩

/-- Equal texts that begin with quoted ones begin with the same one. -/
theorem quoted_append_inj {x y : String} {rest rest' : List Char}
    (h : (quoted x).toList ++ rest = (quoted y).toList ++ rest') : x = y ∧ rest = rest' := by
  rw [quoted, quoted, String.toList_ofList, String.toList_ofList] at h
  obtain ⟨htext, hrest⟩ := Quoted.encode_append_inj h
  exact ⟨String.toList_inj.mp htext, hrest⟩

theorem quoted_inj {x y : String} (h : quoted x = quoted y) : x = y := by
  have happend : (quoted x).toList ++ [] = (quoted y).toList ++ [] := by rw [h]
  exact (quoted_append_inj happend).1

end Text

/-! ## What stands bare in reports -/

theorem Fault.isDigit_countText (n : Nat) : (countText n).toList.all Char.isDigit = true := by
  rw [countText, String.toList_ofList, List.all_eq_true]
  exact fun c hc => Nat.isDigit_of_mem_toDigits (by decide) (by decide) hc

theorem Fault.isWord_countText (n : Nat) : Text.isWord (countText n) = true := by
  rw [Text.isWord, List.all_eq_true]
  intro c hc
  have hdigit : c.isDigit = true := List.all_eq_true.mp (isDigit_countText n) c hc
  rw [Char.isAlphanum, hdigit, Bool.or_true]

/-- A count is told by its digits. -/
theorem Fault.ofDigitChars_countText (n : Nat) :
    Nat.ofDigitChars 10 (countText n).toList 0 = n := by
  rw [countText, String.toList_ofList, Nat.ofDigitChars_ten_toDigits]

theorem Fault.countText_inj {m n : Nat} (h : countText m = countText n) : m = n := by
  rw [← ofDigitChars_countText m, h, ofDigitChars_countText]

theorem Kind.isWord_name (kind : Kind) : Text.isWord kind.name = true := by
  cases kind <;> decide

/-- A kind is told by its name, which reads back. -/
theorem Kind.name_inj {x y : Kind} (h : x.name = y.name) : x = y := by
  have hread := ofName?_name x
  rw [h, ofName?_name] at hread
  exact (Option.some.inj hread).symm

theorem Role.isWord_name (role : Role) : Text.isWord role.name = true := by
  cases role <;> decide

theorem Role.name_inj {x y : Role} (h : x.name = y.name) : x = y := by
  have hread := ofName?_name x
  rw [h, ofName?_name] at hread
  exact (Option.some.inj hread).symm

namespace Catalogue

theorem intercalate_names : ", ".intercalate names = "create, add, mul, subtract" := rfl

variable {signature : Signature} (h : signature ∈ signatures)

include h

theorem isWord_name : Text.isWord signature.name = true := by
  have hall : ∀ signature ∈ signatures, Text.isWord signature.name = true := by decide
  exact hall signature h

theorem isWord_parameter {parameter : Parameter} (hmem : parameter ∈ signature.parameters) :
    Text.isWord parameter.name = true := by
  have hall : ∀ signature ∈ signatures, ∀ parameter ∈ signature.parameters,
      Text.isWord parameter.name = true := by decide
  exact hall signature h parameter hmem

end Catalogue

namespace Fault

/-! ## Reports are visible -/

/-- Whatever a host made up is quoted in a report, and what stands bare consists of words. -/
theorem isVisible_message {fault : Fault} (h : fault.Issued) :
    Text.isVisible fault.message = true := by
  have hword {text : String} (h : Text.isWord text = true) := Text.isVisible_of_isWord h
  unfold message
  -- details that a host chose are quoted; the others come from the catalogue
  cases h with
  | unknownExport unknown => simp +decide [Catalogue.intercalate_names]
  | tooManyArguments listed exceeds =>
    simp +decide [hword (Catalogue.isWord_name listed), hword (isWord_countText _)]
  | missingArgument listed mem => simp +decide [hword (Catalogue.isWord_name listed)]
  | argumentKind listed mem other =>
    simp +decide [hword (Catalogue.isWord_name listed), hword (Kind.isWord_name _)]
  | repeatedArgument listed mem =>
    simp +decide [hword (Catalogue.isWord_name listed),
      hword (Catalogue.isWord_parameter listed mem)]
  | unknownParameter listed unknown => simp +decide [hword (Catalogue.isWord_name listed)]
  | missingReceiver listed declared =>
    simp +decide [hword (Catalogue.isWord_name listed), hword (Kind.isWord_name _)]
  | receiverKind listed declared other =>
    simp +decide [hword (Catalogue.isWord_name listed), hword (Kind.isWord_name _)]
  | unexpectedReceiver listed declared =>
    simp +decide [hword (Catalogue.isWord_name listed), hword (Role.isWord_name _)]

/-! ## Reports tell faults -/

/-- The kind of fault that a report is of. Its first two letters tell it; a report that begins with
the name of an export is of a parameter that is not known. -/
def kindOfReport : List Char → Kind
  | 'u' :: 'n' :: _ => .unknownExport
  | 't' :: 'o' :: _ => .tooManyArguments
  | 'm' :: 'i' :: _ => .missingArgument
  | 't' :: 'y' :: _ => .argumentKind
  | 'a' :: 'r' :: _ => .repeatedArgument
  | 'm' :: 'e' :: _ => .missingReceiver
  | 'r' :: 'e' :: _ => .receiverKind
  | 'i' :: 'n' :: _ => .unexpectedReceiver
  | 'f' :: 'u' :: _ => .unexpectedReceiver
  | _ => .unknownParameter

/-- The beginning of a report tells the kind of its fault. -/
theorem kindOfReport_message {fault : Fault} (h : fault.Issued) :
    kindOfReport fault.message.toList = fault.kind := by
  unfold message
  cases h with
  | unknownParameter listed unknown =>
    -- the report begins with the name of an export, none of which begins like another report
    simp only [String.toList_append]
    rcases Catalogue.eq_of_mem listed with rfl | rfl | rfl | rfl <;> rfl
  | unexpectedReceiver listed declared =>
    simp only [String.toList_append]
    -- what is called on nothing is not a method, whose reports begin otherwise
    rcases Catalogue.eq_of_mem listed with rfl | rfl | rfl | rfl
    · rfl
    · cases declared
    · cases declared
    · rfl
  | _ =>
    simp only [String.toList_append]
    rfl

section

variable {x y : String}

/-- The name stands quoted, after the same words in all reports of this kind. -/
theorem unknownExport_inj {known known' : List String}
    (h : (unknownExport x known).message = (unknownExport y known').message) : x = y := by
  have h := congrArg String.toList h
  unfold message at h
  simp only [String.toList_append, List.append_assoc, List.append_cancel_left_eq] at h
  exact (Text.quoted_append_inj h).1

/-- The parameter stands quoted, and the export is the last word. -/
theorem missingArgument_inj {parameter parameter' : String}
    (h : (missingArgument x parameter).message = (missingArgument y parameter').message) :
    x = y ∧ parameter = parameter' := by
  have h := congrArg String.toList h
  unfold message at h
  simp only [String.toList_append, List.append_assoc, List.append_cancel_left_eq] at h
  obtain ⟨hparameter, h⟩ := Text.quoted_append_inj h
  rw [List.append_cancel_left_eq] at h
  exact ⟨String.toList_inj.mp h, hparameter⟩

/-- Here the second name stands bare too. It is a word in what requests are rejected for. -/
theorem repeatedArgument_inj {name name' : String} (hname : Text.isWord name = true)
    (hname' : Text.isWord name' = true)
    (h : (repeatedArgument x name).message = (repeatedArgument y name').message) :
    x = y ∧ name = name' := by
  have h := congrArg String.toList h
  unfold message at h
  simp only [String.toList_append, List.append_assoc, List.append_cancel_left_eq] at h
  obtain ⟨heq, h⟩ := Text.word_append_inj hname hname' rfl rfl h
  rw [List.append_cancel_left_eq] at h
  exact ⟨String.toList_inj.mp h, heq⟩

variable (hx : Text.isWord x = true) (hy : Text.isWord y = true)

include hx hy

/-- The name and the first count end before the words that follow, and the second count ends the
report. -/
theorem tooManyArguments_inj {max max' got got' : Nat}
    (h : (tooManyArguments x max got).message = (tooManyArguments y max' got').message) :
    x = y ∧ max = max' ∧ got = got' := by
  have h := congrArg String.toList h
  unfold message at h
  simp only [String.toList_append, List.append_assoc, List.append_cancel_left_eq] at h
  obtain ⟨hname, h⟩ := Text.word_append_inj hx hy rfl rfl h
  rw [List.append_cancel_left_eq] at h
  -- one detail is split off at a time, with the fixed words after it
  obtain ⟨hmax, h⟩ := Text.word_append_inj (isWord_countText _) (isWord_countText _) rfl rfl h
  rw [List.append_cancel_left_eq] at h
  exact ⟨hname, countText_inj hmax, countText_inj (String.toList_inj.mp h)⟩

/-- Four details: the export and the kinds as words, the parameter between them quoted. -/
theorem argumentKind_inj {parameter parameter' : String}
    {expected expected' got got' : CallGate.Kind}
    (h : (argumentKind x parameter expected got).message =
      (argumentKind y parameter' expected' got').message) :
    x = y ∧ parameter = parameter' ∧ expected = expected' ∧ got = got' := by
  have h := congrArg String.toList h
  unfold message at h
  simp only [String.toList_append, List.append_assoc, List.append_cancel_left_eq] at h
  obtain ⟨hname, h⟩ := Text.word_append_inj hx hy rfl rfl h
  rw [List.append_cancel_left_eq] at h
  obtain ⟨hparameter, h⟩ := Text.quoted_append_inj h
  rw [List.append_cancel_left_eq] at h
  obtain ⟨hexpected, h⟩ := Text.word_append_inj (Kind.isWord_name _) (Kind.isWord_name _) rfl rfl h
  rw [List.append_cancel_left_eq] at h
  exact ⟨hname, hparameter, Kind.name_inj hexpected, Kind.name_inj (String.toList_inj.mp h)⟩

/-- The export begins the report, and the unknown name ends it, quoted. -/
theorem unknownParameter_inj {name name' : String}
    (h : (unknownParameter x name).message = (unknownParameter y name').message) :
    x = y ∧ name = name' := by
  have h := congrArg String.toList h
  unfold message at h
  simp only [String.toList_append, List.append_assoc] at h
  obtain ⟨hexport, h⟩ := Text.word_append_inj hx hy rfl rfl h
  rw [List.append_cancel_left_eq] at h
  exact ⟨hexport, Text.quoted_inj (String.toList_inj.mp h)⟩

theorem missingReceiver_inj {expected expected' : CallGate.Kind}
    (h : (missingReceiver x expected).message = (missingReceiver y expected').message) :
    x = y ∧ expected = expected' := by
  have h := congrArg String.toList h
  unfold message at h
  simp only [String.toList_append, List.append_assoc, List.append_cancel_left_eq] at h
  obtain ⟨hname, h⟩ := Text.word_append_inj hx hy rfl rfl h
  rw [List.append_cancel_left_eq] at h
  obtain ⟨hexpected, -⟩ := Text.word_append_inj (Kind.isWord_name _) (Kind.isWord_name _) rfl rfl h
  exact ⟨hname, Kind.name_inj hexpected⟩

/-- The export comes first, then both kinds in a row. -/
theorem receiverKind_inj {expected expected' got got' : CallGate.Kind}
    (h : (receiverKind x expected got).message = (receiverKind y expected' got').message) :
    x = y ∧ expected = expected' ∧ got = got' := by
  have h := congrArg String.toList h
  unfold message at h
  simp only [String.toList_append, List.append_assoc, List.append_cancel_left_eq] at h
  obtain ⟨hname, h⟩ := Text.word_append_inj hx hy rfl rfl h
  rw [List.append_cancel_left_eq] at h
  obtain ⟨hexpected, h⟩ := Text.word_append_inj (Kind.isWord_name _) (Kind.isWord_name _) rfl rfl h
  rw [List.append_cancel_left_eq] at h
  exact ⟨hname, Kind.name_inj hexpected, Kind.name_inj (String.toList_inj.mp h)⟩

/-- Here the role of the export begins the report. -/
theorem unexpectedReceiver_inj {role role' : Role}
    (h : (unexpectedReceiver x role).message = (unexpectedReceiver y role').message) :
    x = y ∧ role = role' := by
  have h := congrArg String.toList h
  unfold message at h
  simp only [String.toList_append, List.append_assoc] at h
  obtain ⟨hrole, h⟩ := Text.word_append_inj (Role.isWord_name _) (Role.isWord_name _) rfl rfl h
  rw [List.append_cancel_left_eq] at h
  obtain ⟨hname, -⟩ := Text.word_append_inj hx hy rfl rfl h
  exact ⟨hname, Role.name_inj hrole⟩

end

/-! ### What can be read back -/

/-- A name that is not exported is the first quoted text of its report. -/
theorem firstQuoted?_unknownExport (name : String) (known : List String) :
    Text.firstQuoted? (unknownExport name known).message = some name := by
  unfold message
  simp only [String.append_assoc]
  rw [← String.append_assoc]
  exact Text.firstQuoted?_append (by decide) name _

/-- So is a name that no parameter has, as the export before it has no quotes. -/
theorem firstQuoted?_unknownParameter {exportName : String} (h : Text.isWord exportName = true)
    (name : String) : Text.firstQuoted? (unknownParameter exportName name).message = some name := by
  have hbefore : '"' ∉ (exportName ++ " has no parameter named ").toList := by
    rw [String.toList_append, List.mem_append, not_or]
    exact ⟨Text.quote_not_mem_of_isWord h, by decide⟩
  have hread := Text.firstQuoted?_append hbefore name ""
  rw [String.append_empty] at hread
  unfold message
  exact hread

/-- Where the two counts stand in a report. -/
theorem toList_message_tooManyArguments (exportName : String) (max got : Nat) :
    (tooManyArguments exportName max got).message.toList =
      "too many args for ".toList ++ exportName.toList ++ ": expecting at most ".toList ++
        (countText max).toList ++ " got ".toList ++ (countText got).toList := by
  unfold message
  simp only [String.toList_append]

/-! ### All details together -/

/-- Of the faults that requests are rejected for, no two have the same report. -/
theorem eq_of_message_eq {e f : Fault} (he : e.Issued) (hf : f.Issued)
    (h : e.message = f.message) : e = f := by
  have hkind : e.kind = f.kind := by
    rw [← kindOfReport_message he, ← kindOfReport_message hf, h]
  -- the kinds are equal, so each case leaves one constructor on the other side
  cases he with
  | unknownExport unknown =>
    cases hf with
    | unknownExport unknown' => rw [unknownExport_inj h]
    | _ => cases hkind
  | tooManyArguments listed exceeds =>
    cases hf with
    | tooManyArguments listed' exceeds' =>
      obtain ⟨hname, hmax, hgot⟩ := tooManyArguments_inj (Catalogue.isWord_name listed)
        (Catalogue.isWord_name listed') h
      rw [hname, hmax, hgot]
    | _ => cases hkind
  | missingArgument listed mem =>
    cases hf with
    | missingArgument listed' mem' =>
      obtain ⟨hname, hparameter⟩ := missingArgument_inj h
      rw [hname, hparameter]
    | _ => cases hkind
  | argumentKind listed mem other =>
    cases hf with
    | argumentKind listed' mem' other' =>
      obtain ⟨hname, hparameter, hexpected, hgot⟩ := argumentKind_inj (Catalogue.isWord_name listed)
        (Catalogue.isWord_name listed') h
      rw [hname, hparameter, hexpected, hgot]
    | _ => cases hkind
  | repeatedArgument listed mem =>
    cases hf with
    | repeatedArgument listed' mem' =>
      obtain ⟨hname, hparameter⟩ := repeatedArgument_inj (Catalogue.isWord_parameter listed mem)
        (Catalogue.isWord_parameter listed' mem') h
      rw [hname, hparameter]
    | _ => cases hkind
  | unknownParameter listed unknown =>
    cases hf with
    | unknownParameter listed' unknown' =>
      obtain ⟨hname, hparameter⟩ := unknownParameter_inj (Catalogue.isWord_name listed)
        (Catalogue.isWord_name listed') h
      rw [hname, hparameter]
    | _ => cases hkind
  | missingReceiver listed declared =>
    cases hf with
    | missingReceiver listed' declared' =>
      obtain ⟨hname, hexpected⟩ := missingReceiver_inj (Catalogue.isWord_name listed)
        (Catalogue.isWord_name listed') h
      rw [hname, hexpected]
    | _ => cases hkind
  | receiverKind listed declared other =>
    cases hf with
    | receiverKind listed' declared' other' =>
      obtain ⟨hname, hexpected, hgot⟩ := receiverKind_inj (Catalogue.isWord_name listed)
        (Catalogue.isWord_name listed') h
      rw [hname, hexpected, hgot]
    | _ => cases hkind
  | unexpectedReceiver listed declared =>
    cases hf with
    | unexpectedReceiver listed' declared' =>
      obtain ⟨hname, hrole⟩ := unexpectedReceiver_inj (Catalogue.isWord_name listed)
        (Catalogue.isWord_name listed') h
      rw [hname, hrole]
    | _ => cases hkind

end Fault

/-! ## Reports of requests -/

namespace Request

/-- In the report of a rejection every character can be seen, and none is one by which the report
could pass for another. That is so whatever names a host makes up, although the name of an argument
that is given twice stands there as it is: it is that of a parameter, since a name that no parameter
has is reported as unknown, and for its first place, whether it is given twice or not. -/
theorem visible_of_serve {request : Request} {fault : Fault} (h : request.serve = .error fault) :
    (∀ c ∈ fault.message.toList,
      Text.isHidden c = false ∧ (Text.Quoted.escape c = [c] ∨ c = '"' ∨ c = '\\') ∧
        ∀ range ∈ Text.deceptiveRanges, ¬ (range.1 ≤ c.toNat ∧ c.toNat ≤ range.2)) ∧
    (∀ exportName name, fault = .repeatedArgument exportName name →
      ∃ signature ∈ Catalogue.signatures, signature.name = exportName ∧
        ∃ parameter ∈ signature.parameters, parameter.name = name) ∧
    (∀ signature, Catalogue.find? request.name = some signature →
      ∀ j, (∀ parameter ∈ signature.parameters, parameter.name ≠ request.arguments.nameAt j) →
        (∀ exportName, fault ≠ .repeatedArgument exportName (request.arguments.nameAt j)) ∧
        ((∀ i < j, request.arguments.nameAt i ≠ request.arguments.nameAt j) →
          (fault = .unknownParameter signature.name (request.arguments.nameAt j) ↔
            (request.callOf signature).ReceiverFits ∧ (request.callOf signature).CountFits ∧
              ∀ i < j, ¬ (request.callOf signature).Misnamed i))) ∧
    (fault.kind ≠ .unknownExport →
      ∃ signature ∈ Catalogue.signatures, signature.name = request.name ∧
        fault.exportName? = some signature.name) := by
  obtain ⟨hissued, horigin⟩ := issued_of_serve h
  refine ⟨?_, ?_, ?_, ?_⟩
  · intro c hc
    have hvisible := Text.isVisible_iff.mp (Fault.isVisible_message hissued) c hc
    refine ⟨hvisible, Text.Quoted.isHidden_eq_false_iff.mp hvisible, ?_⟩
    intro range hrange hmem
    rw [Text.isHidden_of_deceptive hrange hmem] at hvisible
    cases hvisible
  · rintro exportName name rfl
    cases hissued with
    | repeatedArgument listed mem => exact ⟨_, listed, rfl, _, mem, rfl⟩
  · intro signature hfind j hunknown
    have hw := wellFormed_of_find? hfind
    have haccept := accept_eq_error_of_serve hfind h
    constructor
    · -- reported as repeated, the name would be that of a parameter
      rintro exportName rfl
      obtain ⟨parameter, hparameter, hknown⟩ := Call.details_of_repeatedArgument hw haccept
      exact hunknown parameter hparameter hknown
    · intro hfirst
      have hreported := Call.accept_eq_unknownParameter_iff hw hunknown hfirst
      rw [haccept] at hreported
      constructor
      · rintro rfl
        exact hreported.mp rfl
      · intro hfits
        exact Except.error.inj (hreported.mpr hfits)
  · intro hkind
    rcases horigin with ⟨-, rfl⟩ | ⟨hmem, hexport⟩
    · exact absurd rfl hkind
    · obtain ⟨signature, hlisted, hname⟩ := List.mem_map.mp hmem
      exact ⟨signature, hlisted, hname, by rw [hexport, hname]⟩

/-- Subtraction with a name that no parameter has, twice. The name would end the line of a report
and turn the direction of what follows. -/
def misleading : Request where
  name := "subtract"
  arguments := { named := [⟨"a\n\u202e", .single .nan⟩, ⟨"a\n\u202e", .single .zero⟩] }

/-- The name is not reported as given twice, and it is quoted where it is reported. -/
theorem visible_of_serve_misleading :
    ∃ fault, misleading.serve = .error fault ∧
      fault = .unknownParameter "subtract" "a\n\u202e" ∧
      fault.message = "subtract has no parameter named \"a\\n\\u\x7b202e\x7d\"" ∧
      (∀ c ∈ fault.message.toList, Text.isHidden c = false ∧ c ≠ '\n') ∧
      (∃ signature ∈ Catalogue.signatures, fault.exportName? = some signature.name) := by
  have hserve : misleading.serve = .error (.unknownParameter "subtract" "a\n\u202e") := by
    decide +kernel
  obtain ⟨hvisible, -, hname, hexport⟩ := visible_of_serve hserve
  refine ⟨_, hserve, ?_, by decide +kernel, ?_, ?_⟩
  · -- the name stands first where nothing is at fault before it
    have hreported := (hname Catalogue.subtract (by decide) ⟨0, by decide⟩ (by decide)).2
      (by intro i hi; exact absurd hi (Nat.not_lt_zero i))
    exact hreported.mpr ⟨rfl, Nat.le_refl 2, fun i hi => absurd hi (Nat.not_lt_zero i)⟩
  · intro c hc
    obtain ⟨hshown, -, hranges⟩ := hvisible c hc
    refine ⟨hshown, ?_⟩
    rintro rfl
    exact hranges (0x0, 0x1f) (by decide) (by decide)
  · obtain ⟨signature, hlisted, -, hexport⟩ := hexport (by decide)
    exact ⟨signature, hlisted, hexport⟩

/-- Requests that are rejected with the same report are rejected for the same. In particular a name
that is not known can be read back from the report, and the counts of arguments stand there with all
their digits. -/
theorem fault_eq_of_message_eq {x y : Request} {e f : Fault} (hx : x.serve = .error e)
    (hy : y.serve = .error f) :
    (e.message = f.message → e = f) ∧
    (∀ name known, e = .unknownExport name known →
      name = x.name ∧ Text.firstQuoted? e.message = some x.name) ∧
    (∀ exportName name, e = .unknownParameter exportName name →
      (∃ j, x.arguments.nameAt j = name) ∧ Text.firstQuoted? e.message = some name) ∧
    (∀ exportName max got, e = .tooManyArguments exportName max got →
      got = x.arguments.count ∧ ∃ maxDigits gotDigits : List Char,
        e.message.toList = "too many args for ".toList ++ exportName.toList ++
          ": expecting at most ".toList ++ maxDigits ++ " got ".toList ++ gotDigits ∧
        maxDigits.all Char.isDigit = true ∧ Nat.ofDigitChars 10 maxDigits 0 = max ∧
        gotDigits.all Char.isDigit = true ∧ Nat.ofDigitChars 10 gotDigits 0 = got) := by
  obtain ⟨hissued, horigin⟩ := issued_of_serve hx
  refine ⟨Fault.eq_of_message_eq hissued (issued_of_serve hy).1, ?_, ?_, ?_⟩
  · rintro name known rfl
    rcases horigin with ⟨-, hfault⟩ | ⟨-, hexport⟩
    · cases hfault
      exact ⟨rfl, Fault.firstQuoted?_unknownExport _ _⟩
    · cases hexport
  · rintro exportName name rfl
    rcases serve_error_cases hx with ⟨-, hfault⟩ | ⟨signature, hfind, haccept⟩
    · cases hfault
    · have hw := wellFormed_of_find? hfind
      refine ⟨(Call.details_of_unknownParameter hw haccept).1, ?_⟩
      cases hissued with
      | unknownParameter listed unknown =>
        exact Fault.firstQuoted?_unknownParameter (Catalogue.isWord_name listed) name
  · rintro exportName max got rfl
    rcases serve_error_cases hx with ⟨-, hfault⟩ | ⟨signature, hfind, haccept⟩
    · cases hfault
    · have hw := wellFormed_of_find? hfind
      refine ⟨(Call.details_of_tooManyArguments hw haccept).2, _, _,
        Fault.toList_message_tooManyArguments exportName max got, ?_, Fault.ofDigitChars_countText _,
        ?_, Fault.ofDigitChars_countText _⟩
      · exact Fault.isDigit_countText max
      · exact Fault.isDigit_countText got

/-- Nothing is exported under the name, which pretends to end where it does not. -/
def pretending : Request where
  name := "add\", expecting one of \\\u200b"

/-- Twelve numbers where one is taken. -/
def crowded : Request where
  name := "create"
  arguments := { positional := List.replicate 12 (.single .zero) }

/-- The name is read back whole, and so are the counts. -/
theorem fault_eq_of_message_eq_pretending :
    (∃ fault, pretending.serve = .error fault ∧
      Text.firstQuoted? fault.message = some pretending.name ∧
      ∀ request other, Request.serve request = .error other → other.message = fault.message →
        other = fault) ∧
    ∃ fault max got, crowded.serve = .error fault ∧
      fault = .tooManyArguments "create" max got ∧ got = 12 ∧
      fault.message = "too many args for create: expecting at most 1 got 12" := by
  have hserve : pretending.serve = .error (.unknownExport pretending.name Catalogue.names) := by
    decide +kernel
  have hcrowded : crowded.serve = .error (.tooManyArguments "create" 1 12) := by decide +kernel
  refine ⟨⟨_, hserve, ?_, ?_⟩, _, _, _, hcrowded, rfl, ?_, by decide +kernel⟩
  · exact ((fault_eq_of_message_eq hserve hserve).2.1 _ _ rfl).2
  · intro request other hother heq
    exact (fault_eq_of_message_eq hother hserve).1 heq
  · exact ((fault_eq_of_message_eq hcrowded hserve).2.2.2 _ _ _ rfl).1

end Request

end CallGate
