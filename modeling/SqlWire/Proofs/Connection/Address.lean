import Mathlib.Data.List.TakeWhile
import SqlWire.Connection.Basic
import SqlWire.Proofs.Text.Digits

/-!
# Addresses are read back

An address names a server, and perhaps a database behind the first slash; a server names a host, and
perhaps a `tcpPort` behind the last colon.  Both are told without the reading, by
`Connection.HasServer` and `Connection.NamesHost`, and the reading accepts exactly what they
describe, `Connection.ofAddress_eq_ok_iff`.  So an address is read as what it was written from, and
a host is empty only where a server begins with its last colon.
-/

namespace SqlWire.Connection

/-! ### First and last occurrences -/

theorem splitFirst?_append
    {c : Char} {before : List Char} (h : c ∉ before) (after : List Char) :
  splitFirst? c (before ++ c :: after) = some (before, after)
  := by
  have others : ∀ d ∈ before, (d != c) = true := fun d hd =>
    bne_iff_ne.mpr (ne_of_mem_of_not_mem hd h)
  rw [splitFirst?, List.dropWhile_append_of_pos others, List.takeWhile_append_of_pos others]
  simp

theorem splitFirst?_of_not_mem
    {c : Char} {cs : List Char} (h : c ∉ cs) :
  splitFirst? c cs = none
  := by
  have others : cs.dropWhile (· != c) = [] := by
    apply List.dropWhile_eq_nil_iff.mpr
    intro d hd
    exact bne_iff_ne.mpr (ne_of_mem_of_not_mem hd h)
  rw [splitFirst?, others]

theorem splitLast?_append
    {c : Char} {after : List Char} (before : List Char) (h : c ∉ after) :
  splitLast? c (before ++ c :: after) = some (before, after)
  := by
  have reversed : (before ++ c :: after).reverse = after.reverse ++ c :: before.reverse := by
    rw [List.reverse_append, List.reverse_cons, List.append_assoc, List.singleton_append]
  rw [splitLast?, reversed, splitFirst?_append (mt List.mem_reverse.mp h), Option.map_some]
  dsimp only
  rw [List.reverse_reverse, List.reverse_reverse]

theorem splitLast?_of_not_mem
    {c : Char} {cs : List Char} (h : c ∉ cs) :
  splitLast? c cs = none
  := by
  rw [splitLast?, splitFirst?_of_not_mem (mt List.mem_reverse.mp h), Option.map_none]

theorem exists_last_of_mem
    {c : Char} {cs : List Char} (h : c ∈ cs) :
  ∃ before after, cs = before ++ c :: after ∧ c ∉ after
  := by
  obtain ⟨after, before, hsplit, hafter⟩ := List.eq_append_cons_of_mem (List.mem_reverse.mpr h)
  refine ⟨before.reverse, after.reverse, ?_, mt List.mem_reverse.mp hafter⟩
  rw [← List.reverse_reverse cs, hsplit, List.reverse_append, List.reverse_cons,
    List.append_assoc, List.singleton_append]

/-! ### What is read as a `tcpPort` -/

/-- The digits are the text, or what is behind a plus sign. -/
theorem exists_tcpPort?_eq
    (cs : List Char) :
  ∃ ds, (cs = ds ∨ cs = '+' :: ds) ∧ tcpPort? cs =
    if Digits.isNumber ds then (Digits.below? (2 ^ 16) ds).map UInt16.ofNat else none
  := by
  unfold tcpPort?
  split
  next ds => exact ⟨ds, .inr rfl, rfl⟩
  next => exact ⟨cs, .inl rfl, rfl⟩

theorem tcpPort?_of_isNumber
    {ds : List Char} (h : Digits.isNumber ds = true) :
  tcpPort? ds = (Digits.below? (2 ^ 16) ds).map UInt16.ofNat
  := by
  obtain ⟨digits, rfl | rfl, hread⟩ := exists_tcpPort?_eq ds
  · rw [hread, if_pos h]
  · exact absurd ((Digits.isNumber_iff.mp h).2 '+' List.mem_cons_self) (by decide)

/-- A `tcpPort` is read back from its digits. -/
theorem tcpPort?_toString
    (tcpPort : UInt16) :
  tcpPort? (toString tcpPort.toNat).toList = some tcpPort
  := by
  have digits : (toString tcpPort.toNat).toList = Digits.fill 0 (Digits.ofNat tcpPort.toNat) := by
    rw [Digits.fill, Nat.zero_sub, List.replicate_zero, List.nil_append]
    apply Nat.toList_repr
  rw [digits, tcpPort?_of_isNumber (Digits.isNumber_fill_ofNat 0 _), Digits.below?_eq (by decide),
    Digits.value_fill_ofNat, if_pos tcpPort.toNat_lt, Option.map_some, UInt16.ofNat_toNat]

/-- Only digits and a plus sign are read. -/
theorem not_mem_of_tcpPort?
    {cs : List Char} {tcpPort : UInt16} (h : tcpPort? cs = some tcpPort) {c : Char}
    (hdigit : Digits.isDigit c = false) (hplus : c ≠ '+') :
  c ∉ cs
  := by
  obtain ⟨ds, hcs, hread⟩ := exists_tcpPort?_eq cs
  rw [hread] at h
  split at h
  next hnumber =>
    have others : c ∉ ds := fun hc =>
      Digits.ne_of_isDigit ((Digits.isNumber_iff.mp hnumber).2 c hc) hdigit rfl
    rcases hcs with rfl | rfl
    · exact others
    · exact List.not_mem_cons_of_ne_of_not_mem hplus others
  next => cases h

/-! ### Addresses -/

/-- The text is a server, alone or before the first slash and a database. -/
inductive HasServer (server : List Char) : List Char → List Char → Prop where
  | alone (h : '/' ∉ server) : HasServer server [] server
  | before (h : '/' ∉ server) (database : List Char) :
      HasServer server database (server ++ '/' :: database)

/-- The server is a host, alone or before the last colon and a `tcpPort`. -/
inductive NamesHost (host : List Char) : UInt16 → List Char → Prop where
  | alone (hne : host ≠ []) (h : ':' ∉ host) : NamesHost host defaultTcpPort host
  | before {tcpPort : UInt16} {digits : List Char} (h : tcpPort? digits = some tcpPort) :
      NamesHost host tcpPort (host ++ ':' :: digits)

theorem HasServer.split
    {server database cs : List Char} (h : HasServer server database cs) :
  (splitFirst? '/' cs).getD (cs, []) = (server, database)
  := by
  cases h with
  | alone h => rw [splitFirst?_of_not_mem h, Option.getD_none]
  | before h => rw [splitFirst?_append h, Option.getD_some]

theorem exists_hasServer
    (cs : List Char) :
  ∃ server database, HasServer server database cs
  := by
  by_cases h : '/' ∈ cs
  · obtain ⟨server, database, rfl, hserver⟩ := List.eq_append_cons_of_mem h
    exact ⟨server, database, .before hserver database⟩
  · exact ⟨cs, [], .alone h⟩

/-- An address is read as what it names. -/
theorem HasServer.ofAddress_eq_ok
    {s : String} {server database host : List Char} {tcpPort : UInt16}
    (hserver : HasServer server database s.toList) (hhost : NamesHost host tcpPort server) :
  ofAddress s = .ok (ofHost (String.ofList host) tcpPort (String.ofList database))
  := by
  rw [ofAddress, hserver.split]
  dsimp only
  cases hhost with
  | alone hne hcolon =>
    rw [if_neg (mt List.isEmpty_iff.mp hne), splitLast?_of_not_mem hcolon]
    rfl
  | before hdigits =>
    have hcolon := not_mem_of_tcpPort? hdigits (c := ':') rfl (by decide)
    rw [if_neg (by simp), splitLast?_append host hcolon]
    dsimp only
    rw [hdigits]
    rfl

theorem HasServer.exists_namesHost
    {s : String} {server database : List Char} {c : Connection}
    (hserver : HasServer server database s.toList) (h : ofAddress s = .ok c) :
  ∃ host tcpPort, NamesHost host tcpPort server ∧
    c = ofHost (String.ofList host) tcpPort (String.ofList database)
  := by
  rw [ofAddress, hserver.split] at h
  dsimp only at h
  split at h
  next => cases h
  next hne =>
    by_cases hcolon : ':' ∈ server
    · obtain ⟨host, digits, rfl, hdigits⟩ := exists_last_of_mem hcolon
      rw [splitLast?_append host hdigits] at h
      dsimp only at h
      split at h
      next => cases h
      next tcpPort hread => exact ⟨host, tcpPort, .before hread, (Except.ok.inj h).symm⟩
    · rw [splitLast?_of_not_mem hcolon] at h
      have named : NamesHost server defaultTcpPort server :=
        .alone (mt List.isEmpty_iff.mpr hne) hcolon
      exact ⟨server, defaultTcpPort, named, (Except.ok.inj h).symm⟩

/-- Exactly what names a server and a host is read. -/
theorem ofAddress_eq_ok_iff
    {s : String} {c : Connection} :
  ofAddress s = .ok c ↔ ∃ server database host tcpPort,
    HasServer server database s.toList ∧ NamesHost host tcpPort server ∧
      c = ofHost (String.ofList host) tcpPort (String.ofList database)
  := by
  constructor
  · intro h
    obtain ⟨server, database, hserver⟩ := exists_hasServer s.toList
    obtain ⟨host, tcpPort, hhost, hc⟩ := hserver.exists_namesHost h
    exact ⟨server, database, host, tcpPort, hserver, hhost, hc⟩
  · rintro ⟨server, database, host, tcpPort, hserver, hhost, rfl⟩
    apply hserver.ofAddress_eq_ok hhost

/-! ### Written addresses -/

/-- A server and a database with a slash between them are read as the host that the server names and
the database. -/
theorem ofAddress_of_toList_eq
    {s host database : String} {server : List Char} {tcpPort : UInt16}
    (htext : s.toList = server ++ '/' :: database.toList) (hslash : '/' ∉ server)
    (hhost : NamesHost host.toList tcpPort server) :
  ofAddress s = .ok (ofHost host tcpPort database)
  := by
  have hserver : HasServer server database.toList s.toList := by
    rw [htext]
    exact .before hslash database.toList
  rw [hserver.ofAddress_eq_ok hhost, String.ofList_toList, String.ofList_toList]

theorem ofAddress_address
    {host : String} (h : '/' ∉ host.toList) (tcpPort : UInt16) (database : String) :
  ofAddress (address host tcpPort database) = .ok (ofHost host tcpPort database)
  := by
  have digits := tcpPort?_toString tcpPort
  have text : (address host tcpPort database).toList =
      (host.toList ++ ':' :: (toString tcpPort.toNat).toList) ++ '/' :: database.toList := by
    simp only [address, String.toList_append, List.append_assoc]
    rfl
  apply ofAddress_of_toList_eq text _ (.before digits)
  apply List.not_mem_append h
  apply List.not_mem_cons_of_ne_of_not_mem (by decide)
  apply not_mem_of_tcpPort? digits rfl (by decide)

theorem ofAddress_without_tcpPort
    {host : String} (hne : host ≠ "") (hslash : '/' ∉ host.toList) (hcolon : ':' ∉ host.toList)
    (database : String) :
  ofAddress (host ++ "/" ++ database) = .ok (ofHost host defaultTcpPort database)
  := by
  have text : (host ++ "/" ++ database).toList = host.toList ++ '/' :: database.toList := by
    simp only [String.toList_append, List.append_assoc]
    rfl
  apply ofAddress_of_toList_eq text hslash
  exact .alone (mt String.toList_eq_nil_iff.mp hne) hcolon

/-- The host is empty only where nothing but digits is behind the first colon of the server. -/
theorem host_eq_empty_iff
    {s : String} {c : Connection} (h : ofAddress s = .ok c) :
  c.host = "" ↔ ∃ digits, tcpPort? digits = some c.tcpPort ∧
    HasServer (':' :: digits) c.database.toList s.toList
  := by
  constructor
  · intro hempty
    obtain ⟨server, database, host, tcpPort, hserver, hhost, rfl⟩ := ofAddress_eq_ok_iff.mp h
    obtain rfl : host = [] := by
      rw [← String.toList_ofList (l := host)]
      exact String.toList_eq_nil_iff.mpr hempty
    cases hhost with
    | alone hne => exact absurd rfl hne
    | before hdigits =>
      refine ⟨_, hdigits, ?_⟩
      rw [ofHost, String.toList_ofList]
      exact hserver
  · rintro ⟨digits, hdigits, hserver⟩
    have named : NamesHost [] c.tcpPort (':' :: digits) := .before hdigits
    have read := hserver.ofAddress_eq_ok named
    rw [h] at read
    exact congrArg host (Except.ok.inj read)

/-- An address with a host, a `tcpPort` and a database is read as these, and so is one without a
`tcpPort`, for which there is a default, if its host has no colon.  The host that is read is empty
only where the server is a colon and digits. -/
theorem ofAddress_written
    {host : String} (hslash : '/' ∉ host.toList) (tcpPort : UInt16) (database : String) :
  ofAddress (address host tcpPort database) = .ok (ofHost host tcpPort database) ∧
  (host ≠ "" → ':' ∉ host.toList →
    ofAddress (host ++ "/" ++ database) = .ok (ofHost host 3306 database)) ∧
  ∀ (s : String) (c : Connection), ofAddress s = .ok c →
    (c.host = "" ↔ ∃ digits, tcpPort? digits = some c.tcpPort ∧
      HasServer (':' :: digits) c.database.toList s.toList)
  := by
  refine ⟨?_, ?_, ?_⟩
  · apply ofAddress_address hslash
  · intro hne hcolon
    apply ofAddress_without_tcpPort hne hslash hcolon
  · intro s c h
    apply host_eq_empty_iff h

/-- A host with colons, a database with colons and slashes, an address without a `tcpPort`, and one
without a host. -/
theorem ofAddress_written_colons :
  ('/' ∉ "::1".toList ∧ ofAddress "::1:3307/a:b/c" = .ok (ofHost "::1" 3307 "a:b/c")) ∧
  ('/' ∉ "db".toList ∧ "db" ≠ "" ∧ ':' ∉ "db".toList ∧
    ofAddress "db/" = .ok (ofHost "db" 3306 "")) ∧
  ofAddress ":3307" = .ok (ofHost "" 3307 "") ∧
    ∃ digits, tcpPort? digits = some 3307 ∧ HasServer (':' :: digits) [] ":3307".toList
  := by
  have hcolons : '/' ∉ "::1".toList := by decide
  have hslash : '/' ∉ "db".toList := by decide
  have hcolon : ':' ∉ "db".toList := by decide
  have hread : ofAddress ":3307" = .ok (ofHost "" 3307 "") := by decide
  obtain ⟨full, -, -⟩ := ofAddress_written hcolons 3307 "a:b/c"
  obtain ⟨-, short, empty⟩ := ofAddress_written hslash 3307 ""
  refine ⟨⟨hcolons, full⟩, ⟨hslash, by decide, hcolon, ?_⟩, hread, ?_⟩
  · apply short (by decide) hcolon
  · apply (empty _ _ hread).mp rfl

/-- An address may be read as one without a host. -/
theorem not_host_ne_empty :
  ¬ ∀ (s : String) (c : Connection), ofAddress s = .ok c → c.host ≠ ""
  := by
  intro h
  have hread : ofAddress ":3307/shop" = .ok (ofHost "" 3307 "shop") := by decide
  exact h _ _ hread rfl

end SqlWire.Connection
