/-
Zap receipts of `types/src/nostr/versioned/event3.rs`: what `zaps` reads of the tags
of a receipt, and whom it takes for the payer.
-/
import Gnostr.Nip19.EntityRoundTrip
import Gnostr.Types.EventV3
import Gnostr.Types.Tag

namespace Gnostr

namespace Types

/-- A reference to another event, by its id or by its address. -/
inductive EventReference where
  | id (id : Id) (author : Option PublicKey) (relays : List RelayUrl)
      (marker : Option String)
  | addr (naddr : NAddr)
deriving Repr, DecidableEq

/-- Addresses are compared without their relays. -/
def NAddr.eq (first second : NAddr) : Bool :=
  first.d == second.d && first.kind == second.kind && first.author == second.author

/-- References are compared without what only helps to find the event. -/
def EventReference.eq : EventReference → EventReference → Bool
  | .id id1 _ _ _, .id id2 _ _ _ => id1 == id2
  | .addr addr1, .addr addr2 => addr1.eq addr2
  | _, _ => false

/-- Data about a zap. -/
structure ZapData where
  zappedEvent : EventReference
  amount : UInt64
  payee : PublicKey
  payer : PublicKey
  providerPubkey : PublicKey
deriving Repr, DecidableEq

/-- What the crate uses of the invoices of the library.  Public keys are given in
33 bytes, of which the first is the parity. -/
structure Bolt11 (Invoice : Type) where
  fromStr : String → Except String Invoice
  checkSignature : Invoice → Except String Unit
  payeePubKey : Invoice → Option (Vector UInt8 33)
  recoverPayeePubKey : Invoice → Vector UInt8 33
  amountMilliSatoshis : Invoice → Option UInt64

/-- What the loop over the tags of a receipt has found. -/
structure ReceiptTags (Invoice : Type) where
  zapRequest : Option EventV3
  bolt11invoice : Option Invoice
  payerPTag : Option PublicKey

section Zaps

variable (curve : Secp256k1) (hex : Hex) (reader : JsonReader) (parser : UrlParser)
  {Invoice : Type} (bolt11 : Bolt11 Invoice)

/-- All events that an event refers to. -/
def EventV3.referredEvents (event : EventV3) : List EventReference :=
  event.tags.filterMap fun tag =>
    match tag.parseEvent hex with
    | .ok (id, rurl, marker) =>
        let relays := (rurl.bind fun rru =>
          (RelayUrl.tryFromStr parser rru.text).toOption).toList
        some (.id id none relays marker)
    | _ =>
        match tag.parseAddress curve hex with
        | .ok (ea, _) => some (.addr ea)
        | _ => none

/-- The value of an invoice tag. -/
def parseInvoice (value : String) : Outcome Error Invoice :=
  if value = "" then .err (.zapReceipt "missing bolt11 tag value")
  else
    match bolt11.fromStr value with
    | .error e => .err (.zapReceipt ("bolt11 failed to parse: " ++ e))
    | .ok invoice =>
        match bolt11.checkSignature invoice with
        | .error e => .err (.zapReceipt ("bolt11 signature check failed: " ++ e))
        | .ok () => .ok invoice

/-- One tag of a receipt.  A later tag overwrites an earlier one. -/
def ReceiptTags.read (found : ReceiptTags Invoice) (tag : TagV3) :
    Outcome Error (ReceiptTags Invoice) :=
  if tag.tagname = "description" then
    match EventV3.fromJsonString hex reader tag.value with
    | .ok e => .ok { found with zapRequest := some e }
    | _ => .ok found
  else if tag.tagname = "P" then
    match tag.parsePubkey curve hex with
    | .ok (pk, _, _) => .ok { found with payerPTag := some pk }
    | _ => .ok found
  else if tag.tagname = "bolt11" then do
    let invoice ← parseInvoice bolt11 tag.value
    return { found with bolt11invoice := some invoice }
  else .ok found

/-- The only one of several references. -/
def soleReference (re : List EventReference) : Option EventReference :=
  if re.length = 1 then re.head? else none

/-- The public key that an invoice names, or else the one that signed it. -/
def payeeFromInvoice (invoice : Invoice) : Outcome Error PublicKey :=
  let secpk := (bolt11.payeePubKey invoice).getD (bolt11.recoverPayeePubKey invoice)
  let xonlypk : Vector UInt8 32 := secpk.tail
  match PublicKey.fromBytes curve xonlypk.toList false with
  | .ok pubkey => .ok pubkey
  | .err _ => .err (.zapReceipt "payee public key error: Invalid Public Key")
  | .panic => .panic

/-- The last amount of a request that is a number of 64 bits. -/
def amountFromRequest (request : EventV3) : Option UInt64 :=
  request.tags.foldl (fun amount tag =>
    if tag.tagname = "amount" then
      match parseUnsigned (2 ^ 64) tag.value.toList with
      | some m => some (UInt64.ofNat m)
      | none => amount
    else amount) none

/-- If an event zaps another event, get data about that. -/
def EventV3.zaps (event : EventV3) : Outcome Error (Option ZapData) :=
  if event.kind ≠ .wellKnown .zap then .ok none
  else do
    let found ← event.tags.foldlM (ReceiptTags.read curve hex reader bolt11)
      ⟨none, none, none⟩
    let targetEventFromTags :=
      soleReference (event.referredEvents curve hex parser)
    match found.zapRequest, found.bolt11invoice with
    | some zapRequest, some bolt11invoice => do
        let payee ← payeeFromInvoice curve bolt11 bolt11invoice
        match bolt11.amountMilliSatoshis bolt11invoice with
        | none => .err (.zapReceipt "Amount missing from zap receipt")
        | some amount =>
            match amountFromRequest zapRequest with
            | none => .err (.zapReceipt "zap request had no amount")
            | some requestAmount =>
                match soleReference
                  (zapRequest.referredEvents curve hex parser) with
                | none => .ok none
                | some target =>
                    if found.payerPTag.any fun p => p ≠ zapRequest.pubkey then
                      .err (.zapReceipt
                        "Payer Mismatch between receipt P-tag and invoice")
                    else if amount ≠ requestAmount then
                      .err (.zapReceipt
                        "Amount Mismatch between request and invoice")
                    else if targetEventFromTags.any fun te => !te.eq target then
                      .err (.zapReceipt
                        "Zapped event Mismatch receipt and request")
                    else
                      return some {
                        zappedEvent := target
                        amount := amount
                        payee := payee
                        payer := zapRequest.pubkey
                        providerPubkey := event.pubkey
                      }
    | _, _ => .ok none

end Zaps

section Tags

variable {curve : Secp256k1} {hex : Hex} {reader : JsonReader}
  {Invoice : Type} {bolt11 : Bolt11 Invoice}

/-- The zap request that a tag holds. -/
def requestOf (hex : Hex) (reader : JsonReader) (tag : TagV3) : Option EventV3 :=
  if tag.tagname = "description" then
    (EventV3.fromJsonString hex reader tag.value).toOption
  else none

/-- The invoice that a tag holds. -/
def invoiceOf (bolt11 : Bolt11 Invoice) (tag : TagV3) : Option Invoice :=
  if tag.tagname = "bolt11" then (parseInvoice bolt11 tag.value).toOption else none

/-- Every invoice tag holds a signed invoice. -/
def InvoicesParse (bolt11 : Bolt11 Invoice) (tags : List TagV3) : Prop :=
  ∀ tag ∈ tags, tag.tagname = "bolt11" →
    ∃ invoice, parseInvoice bolt11 tag.value = .ok invoice

/-- What one tag changes.  No tag changes the payer: the parser that is called on
an upper-case tag refuses it. -/
theorem ReceiptTags.read_eq_ok_iff {found found' : ReceiptTags Invoice}
    {tag : TagV3} :
    found.read curve hex reader bolt11 tag = .ok found' ↔
      (tag.tagname = "bolt11" →
        ∃ invoice, parseInvoice bolt11 tag.value = .ok invoice) ∧
      found' = ⟨(requestOf hex reader tag).or found.zapRequest,
        (invoiceOf bolt11 tag).or found.bolt11invoice, found.payerPTag⟩ := by
  have hsame {next : ReceiptTags Invoice} :
      (.ok next : Outcome Error (ReceiptTags Invoice)) = .ok found' ↔
        found' = next := by
    rw [Outcome.ok.injEq, eq_comm]
  unfold ReceiptTags.read requestOf invoiceOf
  by_cases hdescription : tag.tagname = "description"
  · rw [if_pos hdescription, if_pos hdescription, if_neg (by rw [hdescription]; decide),
      and_iff_right fun hbad => absurd (hdescription.symm.trans hbad) (by decide)]
    cases EventV3.fromJsonString hex reader tag.value with
    | ok request => exact hsame
    | err error => exact hsame
    | panic => exact hsame
  · rw [if_neg hdescription, if_neg hdescription]
    by_cases hpayer : tag.tagname = "P"
    · rw [if_pos hpayer, if_neg (by rw [hpayer]; decide),
        TagV3.parsePubkey_of_tagname_ne (by rw [hpayer]; decide),
        and_iff_right fun hbad => absurd (hpayer.symm.trans hbad) (by decide)]
      exact hsame
    · rw [if_neg hpayer]
      by_cases hinvoice : tag.tagname = "bolt11"
      · rw [if_pos hinvoice, if_pos hinvoice, Outcome.bind_eq_ok_iff]
        constructor
        · rintro ⟨invoice, hparse, hfound⟩
          refine ⟨fun _ => ⟨invoice, hparse⟩, ?_⟩
          rw [hparse]
          exact (Outcome.ok.inj hfound).symm
        · rintro ⟨hparse, rfl⟩
          obtain ⟨invoice, hparse⟩ := hparse hinvoice
          exact ⟨invoice, hparse, by rw [hparse]; rfl⟩
      · rw [if_neg hinvoice, if_neg hinvoice,
          and_iff_right fun hbad => absurd hbad hinvoice]
        exact hsame

theorem getLast?_filterMap_cons {α β : Type} (f : α → Option β) (first : α)
    (rest : List α) (init : Option β) :
    ((first :: rest).filterMap f).getLast?.or init =
      (rest.filterMap f).getLast?.or ((f first).or init) := by
  cases hfirst : f first with
  | none => rw [List.filterMap_cons_none hfirst, Option.none_or]
  | some value =>
      rw [List.filterMap_cons_some hfirst, List.getLast?_cons, Option.some_or,
        Option.some_or, Option.or_some]

/-- The loop gives the last request and the last invoice, and no payer. -/
theorem ReceiptTags.foldlM_read_eq_ok_iff (tags : List TagV3)
    {found found' : ReceiptTags Invoice} :
    tags.foldlM (ReceiptTags.read curve hex reader bolt11) found = .ok found' ↔
      InvoicesParse bolt11 tags ∧
        found' = ⟨(tags.filterMap (requestOf hex reader)).getLast?.or
            found.zapRequest,
          (tags.filterMap (invoiceOf bolt11)).getLast?.or found.bolt11invoice,
          found.payerPTag⟩ := by
  induction tags generalizing found with
  | nil =>
      constructor
      · intro hfound
        exact ⟨fun tag htag => absurd htag List.not_mem_nil,
          (Outcome.ok.inj hfound).symm⟩
      · rintro ⟨_, rfl⟩
        rfl
  | cons tag tags ih =>
      rw [List.foldlM_cons, Outcome.bind_eq_ok_iff, InvoicesParse,
        List.forall_mem_cons, getLast?_filterMap_cons, getLast?_filterMap_cons]
      constructor
      · rintro ⟨next, hread, hrest⟩
        obtain ⟨hinvoice, rfl⟩ := ReceiptTags.read_eq_ok_iff.mp hread
        obtain ⟨hinvoices, hfound⟩ := ih.mp hrest
        exact ⟨⟨hinvoice, hinvoices⟩, hfound⟩
      · rintro ⟨⟨hinvoice, hinvoices⟩, hfound⟩
        exact ⟨_, ReceiptTags.read_eq_ok_iff.mpr ⟨hinvoice, rfl⟩,
          ih.mpr ⟨hinvoices, hfound⟩⟩

theorem soleReference_eq_some_iff {re : List EventReference}
    {target : EventReference} :
    soleReference re = some target ↔ re = [target] := by
  unfold soleReference
  split
  · rename_i hlength
    obtain ⟨only, rfl⟩ := List.length_eq_one_iff.mp hlength
    simp
  · rename_i hlength
    refine iff_of_false nofun ?_
    rintro rfl
    exact hlength rfl

end Tags

section Payer

variable {curve : Secp256k1} {hex : Hex} {reader : JsonReader}
  {parser : UrlParser} {Invoice : Type} {bolt11 : Bolt11 Invoice}

/-- The key that an invoice is paid to. -/
def payeeKey (bolt11 : Bolt11 Invoice) (invoice : Invoice) : PublicKey :=
  ⟨((bolt11.payeePubKey invoice).getD (bolt11.recoverPayeePubKey invoice)).tail⟩

theorem payeeFromInvoice_eq (invoice : Invoice) :
    payeeFromInvoice curve bolt11 invoice = .ok (payeeKey bolt11 invoice) := by
  unfold payeeFromInvoice
  dsimp only
  rw [show ((bolt11.payeePubKey invoice).getD
      (bolt11.recoverPayeePubKey invoice)).tail =
    (payeeKey bolt11 invoice).bytes from rfl, PublicKey.fromBytes_bytes,
    if_neg (by simp)]

/-- All that makes an event a zap receipt, except for its payer tags: invoice tags
that parse, the last of them for the amount that the last request asks for, and one
event that the request refers to. -/
structure IsZap (curve : Secp256k1) (hex : Hex) (reader : JsonReader)
    (parser : UrlParser) (bolt11 : Bolt11 Invoice) (event zapRequest : EventV3)
    (invoice : Invoice) (target : EventReference) (amount : UInt64) : Prop where
  kind_eq : event.kind = .wellKnown .zap
  invoices_parse : InvoicesParse bolt11 event.tags
  zapRequest_last :
    (event.tags.filterMap (requestOf hex reader)).getLast? = some zapRequest
  invoice_last : (event.tags.filterMap (invoiceOf bolt11)).getLast? = some invoice
  amount_paid : bolt11.amountMilliSatoshis invoice = some amount
  amount_requested : amountFromRequest zapRequest = some amount
  target_requested : zapRequest.referredEvents curve hex parser = [target]
  target_tagged : ∀ te, event.referredEvents curve hex parser = [te] →
    te.eq target = true

/-- A target that is tagged is the one that was asked for. -/
theorem any_soleReference_eq_false_iff {re : List EventReference}
    {target : EventReference} :
    ((soleReference re).any fun te => !te.eq target) = false ↔
      ∀ te, re = [te] → te.eq target = true := by
  simp only [Option.any_eq_false, soleReference_eq_some_iff, Bool.not_eq_false']

theorem EventV3.exists_isZap_of_zaps_eq_ok {event : EventV3} {zap : ZapData}
    (hzaps : event.zaps curve hex reader parser bolt11 = .ok (some zap)) :
    ∃ zapRequest invoice,
      IsZap curve hex reader parser bolt11 event zapRequest invoice
          zap.zappedEvent zap.amount ∧
        zap.payee = payeeKey bolt11 invoice ∧ zap.payer = zapRequest.pubkey ∧
          zap.providerPubkey = event.pubkey := by
  unfold EventV3.zaps at hzaps
  split at hzaps
  · cases hzaps
  rename_i hkind
  obtain ⟨found, hfound, hzaps⟩ := Outcome.bind_eq_ok_iff.mp hzaps
  obtain ⟨hparse, hfound⟩ := (ReceiptTags.foldlM_read_eq_ok_iff _).mp hfound
  dsimp only at hzaps
  split at hzaps
  · rename_i zapRequest invoice hrequest hinvoice
    rw [payeeFromInvoice_eq, Outcome.ok_bind] at hzaps
    split at hzaps
    · cases hzaps
    rename_i amount hamount
    split at hzaps
    · cases hzaps
    rename_i requestAmount hrequestAmount
    split at hzaps
    · cases hzaps
    rename_i target htarget
    split at hzaps
    · cases hzaps
    split at hzaps
    · cases hzaps
    rename_i hsameAmount
    split at hzaps
    · cases hzaps
    rename_i htagged
    cases hzaps
    subst hfound
    dsimp only at hrequest hinvoice
    rw [Option.or_none] at hrequest hinvoice
    exact ⟨zapRequest, invoice, {
      kind_eq := not_not.mp hkind
      invoices_parse := hparse
      zapRequest_last := hrequest
      invoice_last := hinvoice
      amount_paid := hamount
      amount_requested := not_not.mp hsameAmount ▸ hrequestAmount
      target_requested := soleReference_eq_some_iff.mp htarget
      target_tagged := any_soleReference_eq_false_iff.mp
        (Bool.eq_false_iff.mpr htagged) }, rfl, rfl, rfl⟩
  · cases hzaps

theorem EventV3.zaps_of_isZap {event : EventV3} {zap : ZapData} {zapRequest : EventV3}
    {invoice : Invoice}
    (hzap : IsZap curve hex reader parser bolt11 event zapRequest invoice
      zap.zappedEvent zap.amount)
    (hpayee : zap.payee = payeeKey bolt11 invoice) (hpayer : zap.payer = zapRequest.pubkey)
    (hprovider : zap.providerPubkey = event.pubkey) :
    event.zaps curve hex reader parser bolt11 = .ok (some zap) := by
  unfold EventV3.zaps
  have hfound : event.tags.foldlM (ReceiptTags.read curve hex reader bolt11)
      ⟨none, none, none⟩ = .ok ⟨some zapRequest, some invoice, none⟩ := by
    refine (ReceiptTags.foldlM_read_eq_ok_iff _).mpr ⟨hzap.invoices_parse, ?_⟩
    rw [hzap.zapRequest_last, hzap.invoice_last]
    rfl
  rw [if_neg (not_not_intro hzap.kind_eq), hfound, Outcome.ok_bind]
  dsimp only
  rw [payeeFromInvoice_eq, Outcome.ok_bind, hzap.amount_paid]
  dsimp only
  rw [hzap.amount_requested]
  dsimp only
  rw [soleReference_eq_some_iff.mpr hzap.target_requested]
  dsimp only
  rw [if_neg (by simp), if_neg (not_not_intro rfl),
    any_soleReference_eq_false_iff.mpr hzap.target_tagged,
    if_neg Bool.false_ne_true, ← hpayee, ← hpayer, ← hprovider]
  rfl

/-- The payer of a zap is the author of the last request, whatever the payer tags
say. -/
theorem EventV3.zaps_eq_ok_some_iff {event : EventV3} {zap : ZapData} :
    event.zaps curve hex reader parser bolt11 = .ok (some zap) ↔
      ∃ zapRequest invoice,
        IsZap curve hex reader parser bolt11 event zapRequest invoice
            zap.zappedEvent zap.amount ∧
          zap.payee = payeeKey bolt11 invoice ∧ zap.payer = zapRequest.pubkey ∧
            zap.providerPubkey = event.pubkey := by
  constructor
  · exact EventV3.exists_isZap_of_zaps_eq_ok
  · rintro ⟨zapRequest, invoice, hzap, hpayee, hpayer, hprovider⟩
    exact EventV3.zaps_of_isZap hzap hpayee hpayer hprovider

/-- A tag of the receipt names a payer by a valid key. -/
def NamesPayer (curve : Secp256k1) (hex : Hex) (event : EventV3)
    (pk : PublicKey) : Prop :=
  ∃ tag ∈ event.tags, tag.tagname = "P" ∧
    PublicKey.tryFromHexString curve hex tag.value true = .ok pk

/-- A zap names the payer that the receipt names, and a receipt whose payer is not
the author of its request is not a zap of either. -/
def PayerAuthentic (curve : Secp256k1) (hex : Hex) (reader : JsonReader)
    (parser : UrlParser) (bolt11 : Bolt11 Invoice) (event : EventV3) : Prop :=
  (∀ zap, event.zaps curve hex reader parser bolt11 = .ok (some zap) →
    ∀ pk, NamesPayer curve hex event pk → zap.payer = pk) ∧
  ∀ zapRequest pk,
    (event.tags.filterMap (requestOf hex reader)).getLast? = some zapRequest →
      NamesPayer curve hex event pk → pk ≠ zapRequest.pubkey →
        ∀ zap, event.zaps curve hex reader parser bolt11 ≠ .ok (some zap)

/-- The payer is authentic exactly if the tags of everything else that makes a zap
agree on it of themselves: the comparison in the code is never reached. -/
theorem payerAuthentic_iff (curve : Secp256k1) (hex : Hex) (reader : JsonReader)
    (parser : UrlParser) (bolt11 : Bolt11 Invoice) (event : EventV3) :
    PayerAuthentic curve hex reader parser bolt11 event ↔
      ∀ zapRequest invoice target amount,
        IsZap curve hex reader parser bolt11 event zapRequest invoice target
            amount →
          ∀ pk, NamesPayer curve hex event pk → pk = zapRequest.pubkey := by
  constructor
  · rintro ⟨hnamed, _⟩ zapRequest invoice target amount hzap pk hpk
    have hzaps : event.zaps curve hex reader parser bolt11 = .ok (some ⟨target,
        amount, payeeKey bolt11 invoice, zapRequest.pubkey, event.pubkey⟩) :=
      EventV3.zaps_eq_ok_some_iff.mpr ⟨zapRequest, invoice, hzap, rfl, rfl, rfl⟩
    exact (hnamed _ hzaps pk hpk).symm
  · intro hagree
    constructor
    · intro zap hzaps pk hpk
      obtain ⟨zapRequest, invoice, hzap, _, hpayer, _⟩ :=
        EventV3.zaps_eq_ok_some_iff.mp hzaps
      rw [hpayer, hagree _ _ _ _ hzap pk hpk]
    · intro zapRequest pk hrequest hpk hne zap hzaps
      obtain ⟨zapRequest', invoice, hzap, _⟩ :=
        EventV3.zaps_eq_ok_some_iff.mp hzaps
      have hsame := hzap.zapRequest_last.symm.trans hrequest
      rw [Option.some.injEq] at hsame
      exact hne (hsame ▸ hagree _ _ _ _ hzap pk hpk)

end Payer

section Receipt

/-- An invoice over 2500 micro-bitcoin. -/
def invoiceText : String :=
  "lnbc2500u1pvjluezsp5zyg3zyg3zyg3zyg3zyg3zyg3zyg3zyg3zyg3zyg3zyg3zyg3zygspp5" ++
  "qqqsyqcyq5rqwzqfqqqsyqcyq5rqwzqfqqqsyqcyq5rqwzqfqypqdq5xysxxatsyp3k7enxv4js" ++
  "xqzpu9qrsgquk0rl77nj30yxdy8j9vdx85fkpmdla2087ne0xh8nhedh8w27kyke0lp53ut353s" ++
  "06fv3qfegext0eh0ymjpf39tuven09sam30g4vgpfna3rh"

/-- What the library says of that invoice, whose payee is the one that signed it. -/
def Bolt11.ofInvoiceText : Bolt11 Unit where
  fromStr text := if text = invoiceText then .ok () else .error "not an invoice"
  checkSignature _ := .ok ()
  payeePubKey _ := none
  recoverPayeePubKey _ :=
    #v[0x03, 0xe7, 0x15, 0x6a, 0xe3, 0x3b, 0x0a, 0x20, 0x8d, 0x07, 0x44, 0x19, 0x91,
      0x63, 0x17, 0x7e, 0x90, 0x9e, 0x80, 0x17, 0x6e, 0x55, 0xd9, 0x7a, 0x2f, 0x22,
      0x1e, 0xde, 0x0f, 0x93, 0x4d, 0xd9, 0xad]
  amountMilliSatoshis _ := some 250000000

/-- The author of the request: the public key of 1. -/
def requester : PublicKey where
  bytes := #v[0x79, 0xbe, 0x66, 0x7e, 0xf9, 0xdc, 0xbb, 0xac, 0x55, 0xa0, 0x62, 0x95,
    0xce, 0x87, 0x0b, 0x07, 0x02, 0x9b, 0xfc, 0xdb, 0x2d, 0xce, 0x28, 0xd9, 0x59,
    0xf2, 0x81, 0x5b, 0x16, 0xf8, 0x17, 0x98]

/-- The payer that the receipt names: the public key of 2. -/
def namedPayer : PublicKey where
  bytes := #v[0xc6, 0x04, 0x7f, 0x94, 0x41, 0xed, 0x7d, 0x6d, 0x30, 0x45, 0x40, 0x6e,
    0x95, 0xc0, 0x7c, 0xd8, 0x5c, 0x77, 0x8e, 0x4b, 0x8c, 0xef, 0x3c, 0xa7, 0xab,
    0xac, 0x09, 0xb9, 0x5c, 0x70, 0x9e, 0xe5]

/-- The event that was zapped. -/
def zappedId : Id := ⟨Vector.replicate 32 1⟩

def requestEvent : EventV3 where
  id := ⟨Vector.replicate 32 2⟩
  pubkey := requester
  createdAt := 1700000000
  kind := .wellKnown .zapRequest
  sig := ⟨Vector.replicate 64 0⟩
  content := ""
  tags := [⟨["amount", "250000000"]⟩, ⟨["e", zappedId.asHexString Hex.reference]⟩]

def descriptionTag : TagV3 :=
  ⟨["description", requestEvent.toJsonString Hex.reference]⟩

def bolt11Tag : TagV3 := ⟨["bolt11", invoiceText]⟩

def payerTag : TagV3 := ⟨["P", namedPayer.asHexString Hex.reference]⟩

def receiptEvent : EventV3 where
  id := ⟨Vector.replicate 32 3⟩
  pubkey := requester
  createdAt := 1700000060
  kind := .wellKnown .zap
  sig := ⟨Vector.replicate 64 0⟩
  content := ""
  tags := [descriptionTag, bolt11Tag, payerTag]

theorem parseInvoice_invoiceText :
    parseInvoice Bolt11.ofInvoiceText invoiceText = .ok () := by
  unfold parseInvoice
  rw [if_neg (by decide)]
  simp [Bolt11.ofInvoiceText]

theorem isZap_receiptEvent :
    IsZap Secp256k1.permissive Hex.reference JsonReader.compact Nip19.noUrls
      Bolt11.ofInvoiceText receiptEvent requestEvent ()
        (.id zappedId none [] none) 250000000 where
  kind_eq := rfl
  invoices_parse := by
    intro tag htag hname
    rcases List.mem_cons.mp htag with rfl | htag
    · exact absurd hname (by decide)
    rcases List.mem_cons.mp htag with rfl | htag
    · exact ⟨(), parseInvoice_invoiceText⟩
    rw [List.mem_singleton.mp htag] at hname
    exact absurd hname (by decide)
  zapRequest_last := by
    have hrequest : requestOf Hex.reference JsonReader.compact descriptionTag =
        some requestEvent := by
      rw [requestOf, if_pos (by decide)]
      exact congrArg Outcome.toOption (EventV3.fromJsonString_toJsonString
        Hex.reference JsonReader.compact requestEvent)
    have hinvoice : requestOf Hex.reference JsonReader.compact bolt11Tag = none :=
      if_neg (by decide)
    have hpayer : requestOf Hex.reference JsonReader.compact payerTag = none :=
      if_neg (by decide)
    rw [show receiptEvent.tags = [descriptionTag, bolt11Tag, payerTag] from rfl,
      List.filterMap_cons_some hrequest, List.filterMap_cons_none hinvoice,
      List.filterMap_cons_none hpayer]
    rfl
  invoice_last := by
    have hrequest : invoiceOf Bolt11.ofInvoiceText descriptionTag = none :=
      if_neg (by decide)
    have hinvoice : invoiceOf Bolt11.ofInvoiceText bolt11Tag = some () := by
      rw [invoiceOf, if_pos (by decide)]
      exact congrArg Outcome.toOption parseInvoice_invoiceText
    have hpayer : invoiceOf Bolt11.ofInvoiceText payerTag = none :=
      if_neg (by decide)
    rw [show receiptEvent.tags = [descriptionTag, bolt11Tag, payerTag] from rfl,
      List.filterMap_cons_none hrequest, List.filterMap_cons_some hinvoice,
      List.filterMap_cons_none hpayer]
    rfl
  amount_paid := rfl
  amount_requested := by decide +kernel
  target_requested := by decide +kernel
  target_tagged := by
    intro te hte
    have hnone : receiptEvent.referredEvents Secp256k1.permissive Hex.reference
        Nip19.noUrls = [] := by
      decide +kernel
    rw [hnone] at hte
    cases hte

/-- The receipt names one payer and is a zap of another. -/
theorem receiptEvent_payer_contradicted :
    ¬ PayerAuthentic Secp256k1.permissive Hex.reference JsonReader.compact
        Nip19.noUrls Bolt11.ofInvoiceText receiptEvent := by
  rintro ⟨hnamed, _⟩
  have hpayer : NamesPayer Secp256k1.permissive Hex.reference receiptEvent
      namedPayer := by
    refine ⟨payerTag, by decide, by decide, ?_⟩
    exact PublicKey.tryFromHexString_asHexString _ _ _ _
  have hwrong := hnamed ⟨.id zappedId none [] none, 250000000,
    payeeKey Bolt11.ofInvoiceText (), requester, requester⟩
    (EventV3.zaps_eq_ok_some_iff.mpr
      ⟨requestEvent, (), isZap_receiptEvent, rfl, rfl, rfl⟩) namedPayer hpayer
  exact absurd hwrong (by decide)

end Receipt

end Types

end Gnostr
