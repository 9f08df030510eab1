import ShelterServer.Foundations.CInt

/-!
# Notations of IP addresses

The texts that denote an IPv4 or an IPv6 address: four decimal numbers, eight
groups of hexadecimal digits, fewer groups around a double colon, an IPv4
address in place of the last two groups, and a zone behind a percent sign.  A
double colon occurs in the compressed notations alone.
-/

namespace ShelterServer.Foundations

def isDecimalDigit (byte : UInt8) : Bool :=
  48 ≤ byte && byte ≤ 57

def isHexDigit (byte : UInt8) : Bool :=
  isDecimalDigit byte || (65 ≤ byte && byte ≤ 70) || (97 ≤ byte && byte ≤ 102)

/-- A number below 256 in decimal digits, without leading zeros. -/
structure IsOctet (octet : Bytes) : Prop where
  nonempty : octet ≠ []
  digits : ∀ byte ∈ octet, isDecimalDigit byte = true
  value : leadingDigits octet ≤ 255
  short : octet = [48] ∨ octet.head? ≠ some 48

/-- The dotted notation of an IPv4 address, as `inet_pton` reads it.  The other
forms that `inet_aton` takes (fewer parts, octal or hexadecimal digits, leading
zeros) are left out. -/
def IsIpv4 (text : Bytes) : Prop :=
  ∃ first second third fourth, IsOctet first ∧ IsOctet second ∧
    IsOctet third ∧ IsOctet fourth ∧
    text = List.intercalate [46] [first, second, third, fourth]

/-- Sixteen bits in one to four hexadecimal digits. -/
structure IsGroup (group : Bytes) : Prop where
  nonempty : group ≠ []
  short : group.length ≤ 4
  digits : ∀ byte ∈ group, isHexDigit byte = true

/-- Groups, the last two of which may be written as an IPv4 address, with the
number of groups that they stand for. -/
inductive IsGroups : List Bytes → Nat → Prop
  | nil : IsGroups [] 0
  | dotted {address : Bytes} (ipv4 : IsIpv4 address) : IsGroups [address] 2
  | cons {group : Bytes} {groups : List Bytes} {count : Nat}
      (first : IsGroup group) (rest : IsGroups groups count) :
      IsGroups (group :: groups) (count + 1)

/-- The name of an interface, in which no colon is allowed, behind a percent
sign, or nothing. -/
def IsZone (zone : Bytes) : Prop :=
  zone = [] ∨ ∃ name, name ≠ [] ∧ 0 ∉ name ∧ 58 ∉ name ∧ zone = 37 :: name

/-- An IPv6 address with all its groups. -/
inductive IsFullIpv6 : Bytes → Prop
  | intro {groups : List Bytes} {zone : Bytes} (all : IsGroups groups 8)
      (zoned : IsZone zone) : IsFullIpv6 (List.intercalate [58] groups ++ zone)

/-- An IPv6 address with a double colon in place of some groups. -/
inductive IsCompressedIpv6 : Bytes → Prop
  | intro {front back : List Bytes} {count : Nat} {zone : Bytes}
      (early : ∀ group ∈ front, IsGroup group) (late : IsGroups back count)
      (fewer : front.length + count ≤ 7) (zoned : IsZone zone) :
      IsCompressedIpv6 (List.intercalate [58] front ++
        ([58, 58] ++ (List.intercalate [58] back ++ zone)))

def IsIpv6 (text : Bytes) : Prop :=
  IsFullIpv6 text ∨ IsCompressedIpv6 text

/-! ## Separators -/

section Separators

variable {α : Type*} {separator : α}

/-- Items that are no separator cannot begin a double one. -/
theorem isInfix_pair_append_iff {front : List α} (absent : separator ∉ front)
    (rest : List α) :
    [separator, separator] <:+: front ++ rest ↔
      [separator, separator] <:+: rest := by
  induction front with
  | nil => rfl
  | cons item front induction =>
      simp only [List.mem_cons, not_or] at absent
      rw [List.cons_append, List.infix_cons_iff, induction absent.2]
      refine or_iff_right fun initial => ?_
      exact absent.1 (List.cons_prefix_cons.mp initial).1

/-- Nonempty pieces without the separator are joined without a double one. -/
theorem not_isInfix_pair_intercalate {pieces : List (List α)}
    (nonempty : ∀ piece ∈ pieces, piece ≠ [])
    (absent : ∀ piece ∈ pieces, separator ∉ piece) {rest : List α}
    (restAbsent : separator ∉ rest) :
    ¬ [separator, separator] <:+:
      List.intercalate [separator] pieces ++ rest := by
  induction pieces with
  | nil =>
      intro occurs
      exact restAbsent (occurs.subset List.mem_cons_self)
  | cons piece pieces induction =>
      rw [List.forall_mem_cons] at nonempty absent
      cases pieces with
      | nil =>
          rw [List.intercalate_singleton, isInfix_pair_append_iff absent.1]
          intro occurs
          exact restAbsent (occurs.subset List.mem_cons_self)
      | cons next pieces =>
          rw [List.intercalate_cons_cons, List.append_assoc, List.append_assoc,
            isInfix_pair_append_iff absent.1, List.singleton_append,
            List.infix_cons_iff]
          rintro (initial | later)
          · have starts := (List.cons_prefix_cons.mp initial).2
            obtain ⟨head, tail, rfl⟩ :=
              List.exists_cons_of_ne_nil (nonempty.2 next List.mem_cons_self)
            have begun : separator = head := by
              cases pieces with
              | nil => simpa using starts
              | cons other pieces =>
                  rw [List.intercalate_cons_cons] at starts
                  simpa using starts
            exact absent.2 (head :: tail) List.mem_cons_self
              (begun ▸ List.mem_cons_self)
          · exact induction nonempty.2 absent.2 later

theorem mem_intercalate_of_two {pieces : List (List α)}
    (two : 2 ≤ pieces.length) :
    separator ∈ List.intercalate [separator] pieces := by
  match pieces with
  | first :: second :: rest =>
      rw [List.intercalate_cons_cons]
      simp

theorem notMem_intercalate {pieces : List (List α)} {item joint : α}
    (absent : ∀ piece ∈ pieces, item ∉ piece) (other : item ≠ joint) :
    item ∉ List.intercalate [joint] pieces := by
  induction pieces with
  | nil => simp
  | cons piece pieces induction =>
      rw [List.forall_mem_cons] at absent
      cases pieces with
      | nil => simpa using absent.1
      | cons next pieces =>
          rw [List.intercalate_cons_cons]
          simpa [other, absent.1] using induction absent.2

end Separators

/-! ## The double colon -/

theorem IsOctet.colon_notMem {octet : Bytes} (shape : IsOctet octet) :
    58 ∉ octet := fun member =>
  absurd (shape.digits 58 member) (by decide)

theorem IsGroup.colon_notMem {group : Bytes} (shape : IsGroup group) :
    58 ∉ group := fun member =>
  absurd (shape.digits 58 member) (by decide)

theorem IsIpv4.colon_notMem {text : Bytes} (ipv4 : IsIpv4 text) :
    58 ∉ text := by
  obtain ⟨first, second, third, fourth, firstShape, secondShape, thirdShape,
    fourthShape, rfl⟩ := ipv4
  refine notMem_intercalate ?_ (by decide)
  simp [firstShape.colon_notMem, secondShape.colon_notMem,
    thirdShape.colon_notMem, fourthShape.colon_notMem]

theorem IsIpv4.ne_nil {text : Bytes} (ipv4 : IsIpv4 text) : text ≠ [] := by
  obtain ⟨first, second, third, fourth, -, -, -, -, rfl⟩ := ipv4
  simp [List.intercalate_cons_cons]

theorem IsZone.colon_notMem {zone : Bytes} (shape : IsZone zone) :
    58 ∉ zone := by
  obtain rfl | ⟨name, -, -, absent, rfl⟩ := shape
  · simp
  · simpa using absent

theorem IsGroups.ne_nil_of_mem {groups : List Bytes} {count : Nat}
    (shape : IsGroups groups count) : ∀ group ∈ groups, group ≠ [] := by
  induction shape with
  | nil => simp
  | dotted ipv4 => simpa using ipv4.ne_nil
  | cons first _ induction =>
      exact List.forall_mem_cons.mpr ⟨first.nonempty, induction⟩

theorem IsGroups.colon_notMem_of_mem {groups : List Bytes} {count : Nat}
    (shape : IsGroups groups count) : ∀ group ∈ groups, 58 ∉ group := by
  induction shape with
  | nil => simp
  | dotted ipv4 => simpa using ipv4.colon_notMem
  | cons first _ induction =>
      exact List.forall_mem_cons.mpr ⟨first.colon_notMem, induction⟩

theorem IsGroups.le_length {groups : List Bytes} {count : Nat}
    (shape : IsGroups groups count) : count ≤ groups.length + 1 := by
  induction shape with
  | nil => simp
  | dotted => simp
  | cons _ _ induction => simpa using induction

theorem IsFullIpv6.not_doubleColon {text : Bytes} (full : IsFullIpv6 text) :
    ¬ [58, 58] <:+: text := by
  obtain ⟨groups, zoned⟩ := full
  exact not_isInfix_pair_intercalate groups.ne_nil_of_mem
    groups.colon_notMem_of_mem zoned.colon_notMem

theorem IsCompressedIpv6.doubleColon {text : Bytes}
    (compressed : IsCompressedIpv6 text) : [58, 58] <:+: text := by
  obtain ⟨_, _, _, _⟩ := compressed
  exact ⟨_, _, List.append_assoc _ _ _⟩

theorem IsIpv4.not_doubleColon {text : Bytes} (ipv4 : IsIpv4 text) :
    ¬ [58, 58] <:+: text := fun occurs =>
  ipv4.colon_notMem (occurs.subset List.mem_cons_self)

theorem IsIpv6.colon_mem {text : Bytes} (ipv6 : IsIpv6 text) : 58 ∈ text := by
  obtain full | compressed := ipv6
  · obtain ⟨groups, -⟩ := full
    have pieces := groups.le_length
    exact List.mem_append_left _ (mem_intercalate_of_two (by omega))
  · exact compressed.doubleColon.subset List.mem_cons_self

theorem IsIpv4.not_ipv6 {text : Bytes} (ipv4 : IsIpv4 text) :
    ¬ IsIpv6 text := fun ipv6 =>
  ipv4.colon_notMem ipv6.colon_mem

/-- A double colon tells an IPv6 address from an IPv4 address unless all its
groups are written. -/
theorem doubleColon_iff_ipv6 {text : Bytes} (valid : IsIpv4 text ∨ IsIpv6 text) :
    ([58, 58] <:+: text ↔ IsIpv6 text) ↔ ¬ IsFullIpv6 text := by
  constructor
  · intro same full
    exact full.not_doubleColon (same.mpr (Or.inl full))
  · intro shortened
    obtain ipv4 | full | compressed := valid
    · exact iff_of_false ipv4.not_doubleColon ipv4.not_ipv6
    · exact (shortened full).elim
    · exact iff_of_true compressed.doubleColon (Or.inr compressed)

end ShelterServer.Foundations
