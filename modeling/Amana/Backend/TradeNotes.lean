import Mathlib
import Amana.Backend.Encryption
import Amana.Backend.RequestBodies
import Amana.Lib.Machine

/-!
# Notes on trades

The parties of a trade keep notes on it, encrypted at rest.  A note is shown to its author and to
the administrators, and to the other party only that it is there.  The store behaves like one that
holds plain texts, but for one thing: a note of blanks passes the check of its length, is trimmed to
nothing and encrypted, and from then on nobody who may read it gets any listing of that trade
(`notes_refine`).  What the others write does not matter to what a party is told (`notes_private`).
Addresses are of ASCII characters.
-/

namespace Amana.Backend.TradeNotes

open Lib Lib.Machine Encryption

/-! ## The source -/

/-- What is used of an encryption service. -/
structure NoteCipher where
  encrypt : String → String → Iv → String
  decrypt : String → String → Except String String

/-- The service, with the version of the key it encrypts under by default. -/
def noteCipher (service : EncryptionService) : NoteCipher where
  encrypt plaintext tradeId iv := Encryption.encrypt service plaintext tradeId "v1" iv
  decrypt := Encryption.decrypt service

structure Parties where
  buyerAddress : String
  sellerAddress : String

structure TradeNote where
  id : Nat
  tradeId : String
  authorAddress : String
  content : String
  createdAt : Nat

structure NotesDatabase where
  trades : String → Option Parties
  tradeNotes : List TradeNote
  lastId : Nat

def NotesDatabase.empty : NotesDatabase := ⟨fun _ => none, [], 0⟩

structure NoteError where
  name : String
  status : Option Nat
  message : String

def tradeNoteAccessDeniedError : NoteError where
  name := "TradeNoteAccessDeniedError"
  status := some 403
  message := "Access denied: you are not allowed to view notes for this trade"

def tradeNoteNotFoundError : NoteError where
  name := "TradeNoteNotFoundError"
  status := some 404
  message := "Trade not found"

/-- An error that the encryption service throws. -/
def encryptionError (message : String) : NoteError := ⟨"Error", none, message⟩

def getAdminAllowlistLowercase (adminPubkeys : String) : List String :=
  ((adminPubkeys.toList.splitOn ',').map fun a =>
    Text.toLowerCase (Text.trim (String.ofList a))).filter (· ≠ "")

structure NotesConfig where
  encryptionService : NoteCipher
  adminPubkeys : String

/-- A note as it is listed. -/
structure NoteView where
  id : Nat
  tradeId : String
  authorAddress : String
  content : Option String
  createdAt : Nat

def isParty (trade : Parties) (caller : String) : Bool :=
  Text.toLowerCase trade.buyerAddress = caller || Text.toLowerCase trade.sellerAddress = caller

/-- Whether a listing shows `caller` what `author` wrote. -/
def mayRead (adminPubkeys caller author : String) : Bool :=
  author = caller || (getAdminAllowlistLowercase adminPubkeys).contains caller

section Service

variable (config : NotesConfig) (db : NotesDatabase)

def addNote (tradeId authorAddress content : String) (iv : Iv) (now : Nat) :
    Except NoteError (TradeNote × NotesDatabase) :=
  match db.trades tradeId with
  | none => .error tradeNoteNotFoundError
  | some trade =>
    let caller := Text.toLowerCase authorAddress
    if !isParty trade caller then .error tradeNoteAccessDeniedError
    else
      let note : TradeNote :=
        { id := db.lastId + 1
          tradeId
          authorAddress := caller
          content := config.encryptionService.encrypt content tradeId iv
          createdAt := now }
      .ok (note, { db with tradeNotes := db.tradeNotes ++ [note], lastId := db.lastId + 1 })

def viewNote (caller : String) (note : TradeNote) : Except NoteError NoteView := do
  let content ←
    if mayRead config.adminPubkeys caller note.authorAddress then
      match config.encryptionService.decrypt note.content note.tradeId with
      | .ok content => .ok (some content)
      | .error message => .error (encryptionError message)
    else .ok none
  return { note with content }

/-- The newest note is the first one. -/
def listNotes (tradeId callerAddress : String) : Except NoteError (List NoteView) :=
  match db.trades tradeId with
  | none => .error tradeNoteNotFoundError
  | some trade =>
    let caller := Text.toLowerCase callerAddress
    let isAdmin := (getAdminAllowlistLowercase config.adminPubkeys).contains caller
    if !isParty trade caller && !isAdmin then .error tradeNoteAccessDeniedError
    else
      ((db.tradeNotes.filter fun note => note.tradeId = tradeId).mergeSort
        fun a b => b.createdAt ≤ a.createdAt).mapM (viewNote config caller)

end Service

/-- A request to the routes; `walletAddress` is that of the token. -/
inductive NoteRequest where
  | post (walletAddress : Option String) (id content : String) (iv : Iv) (now : Nat)
  | get (walletAddress : Option String) (id : String)

inductive NoteAnswer where
  | invalid (message : String)
  | unauthorized
  | failed (error : NoteError)
  | created (id createdAt : Nat)
  | notes (notes : List NoteView)

def addNoteSchema (content : String) : Except String Unit :=
  if Text.utf16Length content < 1 then .error "content: Note content is required"
  else if 2000 < Text.utf16Length content then
    .error "content: Note content must be 2000 characters or fewer"
  else .ok ()

def tradeIdParamSchema (id : String) : Except String String :=
  if Text.trim id = "" then .error "id: Trade ID is required" else .ok (Text.trim id)

def requireWalletFromJwt (walletAddress : Option String) : Option String :=
  (walletAddress.map Text.trim).filter (· ≠ "")

/-- What becomes of the database, and the answer. -/
def handle (config : NotesConfig) (db : NotesDatabase) : NoteRequest → NotesDatabase × NoteAnswer
  | .post walletAddress id content iv now =>
    -- The body is checked before the parameters, and both are sanitized after.
    match addNoteSchema content, tradeIdParamSchema id with
    | .error message, _ | .ok _, .error message => (db, .invalid message)
    | .ok _, .ok tradeId =>
      match requireWalletFromJwt walletAddress with
      | none => (db, .unauthorized)
      | some callerAddress =>
        match addNote config db (sanitizeString tradeId) callerAddress (sanitizeString content) iv
          now with
        | .error error => (db, .failed error)
        | .ok (note, db) => (db, .created note.id note.createdAt)
  | .get walletAddress id =>
    match tradeIdParamSchema id with
    | .error message => (db, .invalid message)
    | .ok tradeId =>
      match requireWalletFromJwt walletAddress with
      | none => (db, .unauthorized)
      | some callerAddress =>
        match listNotes config db (sanitizeString tradeId) callerAddress with
        | .error error => (db, .failed error)
        | .ok notes => (db, .notes notes)

/-- A request is served, or the row of a trade is written by another part of the backend; the notes
go with a row that is deleted. -/
inductive NoteStep where
  | request (request : NoteRequest)
  | trade (tradeId : String) (parties : Option Parties)

def NotesDatabase.putTrade (db : NotesDatabase) (tradeId : String) (parties : Option Parties) :
    NotesDatabase :=
  { db with
    trades := Function.update db.trades tradeId parties
    tradeNotes := if parties.isSome then db.tradeNotes
      else db.tradeNotes.filter fun note => note.tradeId ≠ tradeId }

def noteStep (config : NotesConfig) (db : NotesDatabase) : NoteStep → NotesDatabase
  | .request request => (handle config db request).1
  | .trade tradeId parties => db.putTrade tradeId parties

/-- The request of a step with its answer. -/
def answered (config : NotesConfig) (db : NotesDatabase) : NoteStep → List (NoteRequest × NoteAnswer)
  | .request request => [(request, (handle config db request).2)]
  | .trade .. => []

def answersFrom (config : NotesConfig) (db : NotesDatabase) (as : List NoteStep) :
    List (NoteRequest × NoteAnswer) :=
  (trail (noteStep config) db as).flatMap fun p => answered config p.1 p.2

/-- The answers to the requests of a run. -/
def answers (config : NotesConfig) (as : List NoteStep) : List (NoteRequest × NoteAnswer) :=
  answersFrom config .empty as

theorem answersFrom_nil (config : NotesConfig) (db : NotesDatabase) :
    answersFrom config db [] = [] := rfl

theorem answersFrom_cons (config : NotesConfig) (db : NotesDatabase) (a : NoteStep)
    (as : List NoteStep) : answersFrom config db (a :: as) =
      answered config db a ++ answersFrom config (noteStep config db a) as := rfl

/-! ## What a reader sees of the store -/

/-- A note with what its content is decrypted to, when its author is one of those that are seen. -/
structure SeenNote where
  id : Nat
  tradeId : String
  authorAddress : String
  content : Option (Except String String)
  createdAt : Nat

def seen (cipher : NoteCipher) (sees : String → Bool) (note : TradeNote) : SeenNote :=
  { note with
    content := if sees note.authorAddress then some (cipher.decrypt note.content note.tradeId)
      else none }

/-- Two stores that look the same to who sees these authors. -/
structure Alike (sees : String → Bool) (cipher cipher' : NoteCipher) (db db' : NotesDatabase) :
    Prop where
  trades : db.trades = db'.trades
  tradeNotes : db.tradeNotes.map (seen cipher sees) = db'.tradeNotes.map (seen cipher' sees)
  lastId : db.lastId = db'.lastId

variable {sees : String → Bool} {cipher cipher' : NoteCipher} {adminPubkeys : String}
  {db db' : NotesDatabase} {tradeId callerAddress : String}

/-- A listing shows a note by what is seen of it. -/
def viewSeen (adminPubkeys caller : String) (note : SeenNote) : Except NoteError NoteView := do
  let content ←
    if mayRead adminPubkeys caller note.authorAddress then
      match note.content with
      | some (.ok content) => .ok (some content)
      | some (.error message) => .error (encryptionError message)
      | none => .ok none
    else .ok none
  return { note with content }

theorem viewNote_eq {caller : String} (note : TradeNote)
    (covers : ∀ author, mayRead adminPubkeys caller author = true → sees author = true) :
    viewNote ⟨cipher, adminPubkeys⟩ caller note =
      viewSeen adminPubkeys caller (seen cipher sees note) := by
  by_cases h : mayRead adminPubkeys caller note.authorAddress = true
  · simp only [viewNote, viewSeen, seen, h, covers _ h, if_true]
    split <;> simp_all
  · simp only [viewNote, viewSeen, seen, h]
    rfl

theorem map_seen_sorted (cipher : NoteCipher) (sees : String → Bool) (tradeId : String)
    (notes : List TradeNote) :
    ((notes.filter fun note => note.tradeId = tradeId).mergeSort
        fun a b => b.createdAt ≤ a.createdAt).map (seen cipher sees) =
      ((notes.map (seen cipher sees)).filter fun note => note.tradeId = tradeId).mergeSort
        fun a b => b.createdAt ≤ a.createdAt := by
  rw [List.filter_map]
  exact List.map_mergeSort fun _ _ _ _ => rfl

/-- A listing tells no more than what is seen of the store. -/
theorem listNotes_congr (alike : Alike sees cipher cipher' db db')
    (covers : ∀ author, mayRead adminPubkeys (Text.toLowerCase callerAddress) author = true →
      sees author = true) :
    listNotes ⟨cipher, adminPubkeys⟩ db tradeId callerAddress =
      listNotes ⟨cipher', adminPubkeys⟩ db' tradeId callerAddress := by
  have hview (cipher₀ : NoteCipher) (notes : List TradeNote) :
      notes.mapM (viewNote ⟨cipher₀, adminPubkeys⟩ (Text.toLowerCase callerAddress)) =
        (notes.map (seen cipher₀ sees)).mapM
          (viewSeen adminPubkeys (Text.toLowerCase callerAddress)) := by
    rw [List.mapM_map]
    congr 1
    exact funext fun note => viewNote_eq note covers
  rw [listNotes, listNotes, alike.trades]
  cases db'.trades tradeId with
  | none => rfl
  | some trade => simp only [hview, map_seen_sorted, alike.tradeNotes]

theorem Alike.putTrade (alike : Alike sees cipher cipher' db db') (tradeId : String)
    (parties : Option Parties) :
    Alike sees cipher cipher' (db.putTrade tradeId parties) (db'.putTrade tradeId parties) := by
  have hfilter (cipher₀ : NoteCipher) (notes : List TradeNote) :
      (notes.filter fun note => note.tradeId ≠ tradeId).map (seen cipher₀ sees) =
        (notes.map (seen cipher₀ sees)).filter fun note => note.tradeId ≠ tradeId := by
    rw [List.filter_map]
    rfl
  refine ⟨by rw [NotesDatabase.putTrade, NotesDatabase.putTrade, alike.trades], ?_, alike.lastId⟩
  simp only [NotesDatabase.putTrade]
  split
  · exact alike.tradeNotes
  · rw [hfilter, hfilter, alike.tradeNotes]

/-- The same note is added to both stores. -/
theorem Alike.addNote (alike : Alike sees cipher cipher' db db')
    (adminPubkeys tradeId callerAddress : String) {content content' : String} {iv iv' : Iv}
    (now : Nat)
    (same : sees (Text.toLowerCase callerAddress) = true →
      cipher.decrypt (cipher.encrypt content tradeId iv) tradeId =
        cipher'.decrypt (cipher'.encrypt content' tradeId iv') tradeId) :
    (∃ error, addNote ⟨cipher, adminPubkeys⟩ db tradeId callerAddress content iv now =
        .error error ∧
      addNote ⟨cipher', adminPubkeys⟩ db' tradeId callerAddress content' iv' now = .error error) ∨
    ∃ note db₁ note' db₁',
      addNote ⟨cipher, adminPubkeys⟩ db tradeId callerAddress content iv now = .ok (note, db₁) ∧
      addNote ⟨cipher', adminPubkeys⟩ db' tradeId callerAddress content' iv' now =
        .ok (note', db₁') ∧
      note.id = note'.id ∧ note.createdAt = note'.createdAt ∧
      Alike sees cipher cipher' db₁ db₁' := by
  rw [TradeNotes.addNote, TradeNotes.addNote, alike.trades]
  cases db'.trades tradeId with
  | none => exact .inl ⟨_, rfl, rfl⟩
  | some trade =>
    by_cases h : isParty trade (Text.toLowerCase callerAddress) = true
    · simp only [h, Bool.not_true, Bool.false_eq_true, if_false]
      refine .inr ⟨_, _, _, _, rfl, rfl, by rw [alike.lastId], rfl, rfl, ?_, by simp [alike.lastId]⟩
      simp only [List.map_append, alike.tradeNotes, List.map_cons, List.map_nil, seen, alike.lastId]
      by_cases hsees : sees (Text.toLowerCase callerAddress) = true
      · simp [hsees, same hsees]
      · simp [hsees]
    · simp only [h]
      exact .inl ⟨_, rfl, rfl⟩

/-! ## Runs that look the same -/

/-- The lower-case wallet a request is served for. -/
def NoteRequest.caller : NoteRequest → Option String
  | .post walletAddress .. => (requireWalletFromJwt walletAddress).map Text.toLowerCase
  | .get walletAddress _ => (requireWalletFromJwt walletAddress).map Text.toLowerCase

/-- Steps that differ at most in what a note says, and there only to who does not see its author. -/
inductive Matches (sees : String → Bool) (cipher cipher' : NoteCipher) :
    NoteStep → NoteStep → Prop
  | trade (tradeId parties) : Matches sees cipher cipher' (.trade tradeId parties)
      (.trade tradeId parties)
  | get (walletAddress id) : Matches sees cipher cipher' (.request (.get walletAddress id))
      (.request (.get walletAddress id))
  | post (walletAddress id content content' iv iv' now)
      (checked : addNoteSchema content = addNoteSchema content')
      (same : ∀ callerAddress ∈ requireWalletFromJwt walletAddress,
        sees (Text.toLowerCase callerAddress) = true → ∀ tradeId,
          cipher.decrypt (cipher.encrypt (sanitizeString content) tradeId iv) tradeId =
            cipher'.decrypt (cipher'.encrypt (sanitizeString content') tradeId iv') tradeId) :
      Matches sees cipher cipher' (.request (.post walletAddress id content iv now))
        (.request (.post walletAddress id content' iv' now))

variable {a a' : NoteStep} {as bs : List NoteStep}

/-- Matching posts are answered alike, and leave stores that are alike. -/
theorem handle_post {walletAddress : Option String} {id content content' : String} {iv iv' : Iv}
    {now : Nat} (alike : Alike sees cipher cipher' db db')
    (checked : addNoteSchema content = addNoteSchema content')
    (same : ∀ callerAddress ∈ requireWalletFromJwt walletAddress,
      sees (Text.toLowerCase callerAddress) = true → ∀ tradeId,
        cipher.decrypt (cipher.encrypt (sanitizeString content) tradeId iv) tradeId =
          cipher'.decrypt (cipher'.encrypt (sanitizeString content') tradeId iv') tradeId) :
    Alike sees cipher cipher'
        (handle ⟨cipher, adminPubkeys⟩ db (.post walletAddress id content iv now)).1
        (handle ⟨cipher', adminPubkeys⟩ db' (.post walletAddress id content' iv' now)).1 ∧
      (handle ⟨cipher, adminPubkeys⟩ db (.post walletAddress id content iv now)).2 =
        (handle ⟨cipher', adminPubkeys⟩ db' (.post walletAddress id content' iv' now)).2 := by
  simp only [handle, checked]
  cases addNoteSchema content' with
  | error message => exact ⟨alike, rfl⟩
  | ok =>
    cases tradeIdParamSchema id with
    | error message => exact ⟨alike, rfl⟩
    | ok tradeId =>
      cases hwallet : requireWalletFromJwt walletAddress with
      | none => exact ⟨alike, rfl⟩
      | some callerAddress =>
        obtain ⟨error, h, h'⟩ | ⟨note, db₁, note', db₁', h, h', hid, hcreated, hnext⟩ :=
          alike.addNote adminPubkeys (sanitizeString tradeId) callerAddress now
            fun hsees => same callerAddress hwallet hsees _
        · simp only [h, h']
          exact ⟨alike, trivial⟩
        · simp only [h, h', hid, hcreated]
          exact ⟨hnext, trivial⟩

theorem handle_get_fst (config : NotesConfig) (walletAddress : Option String) (id : String) :
    (handle config db (.get walletAddress id)).1 = db := by
  simp only [handle]
  repeat' split
  all_goals rfl

theorem Alike.step (alike : Alike sees cipher cipher' db db') (adminPubkeys : String)
    (h : Matches sees cipher cipher' a a') :
    Alike sees cipher cipher' (noteStep ⟨cipher, adminPubkeys⟩ db a)
      (noteStep ⟨cipher', adminPubkeys⟩ db' a') := by
  cases h with
  | trade tradeId parties => exact alike.putTrade tradeId parties
  | get walletAddress id => rwa [noteStep, noteStep, handle_get_fst, handle_get_fst]
  | post walletAddress id content content' iv iv' now checked same =>
    exact (handle_post alike checked same).1

/-- A request whose caller reads only authors that are seen is answered alike. -/
theorem handle_snd_eq {request request' : NoteRequest} (alike : Alike sees cipher cipher' db db')
    (h : Matches sees cipher cipher' (.request request) (.request request'))
    (covers : ∀ caller ∈ request.caller, ∀ author, mayRead adminPubkeys caller author = true →
      sees author = true) :
    (handle ⟨cipher, adminPubkeys⟩ db request).2 =
      (handle ⟨cipher', adminPubkeys⟩ db' request').2 := by
  cases h with
  | post walletAddress id content content' iv iv' now checked same =>
    exact (handle_post alike checked same).2
  | get walletAddress id =>
    simp only [handle]
    cases tradeIdParamSchema id with
    | error message => rfl
    | ok tradeId =>
      cases hwallet : requireWalletFromJwt walletAddress with
      | none => rfl
      | some callerAddress =>
        have hcovers := covers (Text.toLowerCase callerAddress) (by simp [NoteRequest.caller, hwallet])
        simp only [listNotes_congr alike hcovers]
        cases listNotes ⟨cipher', adminPubkeys⟩ db' (sanitizeString tradeId) callerAddress <;> rfl

theorem Matches.eq_trade {parties : Option Parties}
    (h : Matches sees cipher cipher' (.trade tradeId parties) a') : a' = .trade tradeId parties := by
  cases h
  rfl

theorem Matches.exists_request {request : NoteRequest}
    (h : Matches sees cipher cipher' (.request request) a') : ∃ request', a' = .request request' := by
  cases h
  · exact ⟨_, rfl⟩
  · exact ⟨_, rfl⟩

theorem Matches.caller_eq {request request' : NoteRequest}
    (h : Matches sees cipher cipher' (.request request) (.request request')) :
    request.caller = request'.caller := by
  cases h <;> rfl

/-- Runs that match step by step are answered alike, for the callers whose requests are the same and
who read only authors that are seen. -/
theorem answers_congr (adminPubkeys : String) (who : Option String → Bool)
    {R : NoteStep → NoteStep → Prop} (hmatches : ∀ a a', R a a' → Matches sees cipher cipher' a a')
    (hsame : ∀ request request', R (.request request) (.request request') →
      who request.caller = true → request = request')
    (hcovers : ∀ caller, who (some caller) = true → ∀ author,
      mayRead adminPubkeys caller author = true → sees author = true)
    (h : List.Forall₂ R as bs) (alike : Alike sees cipher cipher' db db') :
    (answersFrom ⟨cipher, adminPubkeys⟩ db as).filter (fun p => who p.1.caller) =
      (answersFrom ⟨cipher', adminPubkeys⟩ db' bs).filter fun p => who p.1.caller := by
  induction h generalizing db db' with
  | nil => rw [answersFrom_nil, answersFrom_nil]
  | @cons a a' as bs ha _ ih =>
    have hrest := ih (alike.step adminPubkeys (hmatches a a' ha))
    cases a with
    | trade tradeId parties =>
      obtain rfl := (hmatches _ _ ha).eq_trade
      exact hrest
    | request request =>
      obtain ⟨request', rfl⟩ := (hmatches _ _ ha).exists_request
      have hmatch := hmatches _ _ ha
      rw [answersFrom_cons, answersFrom_cons, answered, answered, List.singleton_append,
        List.singleton_append, List.filter_cons, List.filter_cons, hrest]
      by_cases hwho : who request.caller = true
      · obtain rfl := hsame _ _ ha hwho
        rw [handle_snd_eq alike hmatch fun caller hcaller =>
          hcovers caller (by rwa [Option.mem_def.1 hcaller] at hwho)]
      · rw [if_neg hwho, if_neg (by rwa [← hmatch.caller_eq])]

/-! ## The encrypted store -/

/-- Texts as they are; an empty one is refused when it is read. -/
def plainCipher : NoteCipher where
  encrypt plaintext _ _ := plaintext
  decrypt ciphertext _ :=
    if ciphertext = "" then .error "Invalid encrypted payload" else .ok ciphertext

theorem noteCipher_reads {service : EncryptionService} (lawful : service.crypto.Lawful)
    (plaintext tradeId : String) (iv : Iv) :
    (noteCipher service).decrypt ((noteCipher service).encrypt plaintext tradeId iv) tradeId =
      plainCipher.decrypt (plainCipher.encrypt plaintext tradeId iv) tradeId := by
  have hversion : Readable "v1" := by decide
  simp only [noteCipher, plainCipher, decrypt_encrypt lawful, hversion, true_and]
  by_cases h : plaintext = "" <;> simp [h]

theorem Alike.refl_empty : Alike sees cipher cipher' .empty .empty := ⟨rfl, rfl, rfl⟩

/-- The routes answer every run as if the notes were kept as they are sent, but that nobody is
listed an empty note. -/
theorem notes_refine {service : EncryptionService} (lawful : service.crypto.Lawful)
    (adminPubkeys : String) (as : List NoteStep) :
    answers ⟨noteCipher service, adminPubkeys⟩ as = answers ⟨plainCipher, adminPubkeys⟩ as := by
  have hmatches (a a' : NoteStep) (h : a = a') :
      Matches (fun _ => true) (noteCipher service) plainCipher a a' := by
    subst h
    rcases a with (⟨walletAddress, id, content, iv, now⟩ | ⟨walletAddress, id⟩) | ⟨tradeId, parties⟩
    · exact .post walletAddress id content content iv iv now rfl fun _ _ _ tradeId =>
        noteCipher_reads lawful (sanitizeString content) tradeId iv
    · exact .get walletAddress id
    · exact .trade tradeId parties
  have h := answers_congr adminPubkeys (fun _ => true) hmatches
    (fun _ _ h _ => NoteStep.request.inj h) (fun _ _ _ _ => rfl) (List.forall₂_refl as)
    Alike.refl_empty
  simpa [answers] using h

/-! ## Privacy -/

/-- Runs that differ in what the notes of others say. -/
inductive SameBut (caller : String) : NoteStep → NoteStep → Prop
  | same (b : NoteStep) : SameBut caller b b
  | note (walletAddress id content content' iv iv' now)
      (other : (requireWalletFromJwt walletAddress).map Text.toLowerCase ≠ some caller)
      (checked : addNoteSchema content = .ok ()) (checked' : addNoteSchema content' = .ok ()) :
      SameBut caller (.request (.post walletAddress id content iv now))
        (.request (.post walletAddress id content' iv' now))

theorem SameBut.matches {caller : String} (cipher : NoteCipher) (h : SameBut caller a a') :
    Matches (fun author => author = caller) cipher cipher a a' := by
  cases h with
  | same =>
    rcases a with (⟨walletAddress, id, content, iv, now⟩ | ⟨walletAddress, id⟩) | ⟨tradeId, parties⟩
    · exact .post walletAddress id content content iv iv now rfl fun _ _ _ _ => rfl
    · exact .get walletAddress id
    · exact .trade tradeId parties
  | note walletAddress id content content' iv iv' now other checked checked' =>
    refine .post walletAddress id content content' iv iv' now (checked.trans checked'.symm) ?_
    intro callerAddress hwallet hsees
    rw [Option.mem_def.1 hwallet] at other
    exact absurd (congrArg some (of_decide_eq_true hsees)) other

/-- What a party that is no administrator is told does not depend on what the others write. -/
theorem notes_private (config : NotesConfig) {caller : String}
    (notAdmin : caller ∉ getAdminAllowlistLowercase config.adminPubkeys)
    (h : List.Forall₂ (SameBut caller) as bs) :
    (answers config as).filter (fun p => p.1.caller = some caller) =
      (answers config bs).filter fun p => p.1.caller = some caller := by
  refine answers_congr config.adminPubkeys (fun who => who = some caller)
    (fun _ _ h => h.matches config.encryptionService) (fun request request' h hwho => ?_)
    (fun who hwho author hread => ?_) h Alike.refl_empty
  · cases h with
    | same => rfl
    | note walletAddress id content content' iv iv' now other checked checked' =>
      exact absurd (of_decide_eq_true hwho) other
  · obtain rfl := Option.some.inj (of_decide_eq_true hwho)
    simp only [mayRead, Bool.or_eq_true, decide_eq_true_eq, List.contains_iff_mem, notAdmin,
      or_false] at hread
    exact decide_eq_true hread

/-! ## Blank notes -/

/-- The error of a listing with a note that is empty. -/
def invalidPayload : NoteError := encryptionError "Invalid encrypted payload"

/-- The trade a request is about. -/
def noteTrade (id : String) : String := sanitizeString (Text.trim id)

/-- A post is refused, or its note is the last one. -/
theorem handle_post_cases (config : NotesConfig) (db : NotesDatabase)
    (walletAddress : Option String) (id content : String) (iv : Iv) (now : Nat) :
    (handle config db (.post walletAddress id content iv now)).1 = db ∧
        (∀ n t, (handle config db (.post walletAddress id content iv now)).2 ≠ .created n t) ∨
      ∃ author ∈ (NoteRequest.post walletAddress id content iv now).caller,
        (handle config db (.post walletAddress id content iv now)).2 = .created (db.lastId + 1) now ∧
        (handle config db (.post walletAddress id content iv now)).1 =
          { db with
            tradeNotes := db.tradeNotes ++ [⟨db.lastId + 1, noteTrade id, author,
              config.encryptionService.encrypt (sanitizeString content) (noteTrade id) iv, now⟩]
            lastId := db.lastId + 1 } := by
  simp only [handle]
  cases addNoteSchema content with
  | error message => exact .inl ⟨rfl, by simp⟩
  | ok =>
    by_cases hid : Text.trim id = ""
    · simp only [tradeIdParamSchema, hid, if_true]
      exact .inl ⟨trivial, by simp⟩
    simp only [tradeIdParamSchema, hid, if_false]
    cases hwallet : requireWalletFromJwt walletAddress with
    | none => exact .inl ⟨rfl, by simp⟩
    | some callerAddress =>
      simp only [addNote]
      cases db.trades (sanitizeString (Text.trim id)) with
      | none => exact .inl ⟨rfl, by simp⟩
      | some trade =>
        by_cases hparty : isParty trade (Text.toLowerCase callerAddress) = true
        · simp only [hparty, Bool.not_true, Bool.false_eq_true, if_false]
          exact .inr ⟨Text.toLowerCase callerAddress, by simp [NoteRequest.caller, hwallet],
            trivial, rfl⟩
        · simp only [hparty]
          exact .inl ⟨rfl, by simp⟩

/-- A note of blanks on a trade, which `caller` may read. -/
def BlankPost (config : NotesConfig) (caller tradeId : String) (db : NotesDatabase) :
    NoteStep → Prop
  | .request (.post walletAddress id content iv now) =>
    noteTrade id = tradeId ∧ Text.trim content = "" ∧
      (∃ n t, (handle config db (.post walletAddress id content iv now)).2 = .created n t) ∧
      ∃ author ∈ (NoteRequest.post walletAddress id content iv now).caller,
        mayRead config.adminPubkeys caller author = true
  | _ => False

/-- Some note on a trade that `caller` may read is not decrypted. -/
def Unreadable (config : NotesConfig) (caller tradeId : String) (db : NotesDatabase) : Prop :=
  ∃ note ∈ db.tradeNotes, note.tradeId = tradeId ∧
    mayRead config.adminPubkeys caller note.authorAddress = true ∧
    config.encryptionService.decrypt note.content note.tradeId = .error "Invalid encrypted payload"

theorem unreadable_step {config : NotesConfig} {caller : String}
    (reads : ∀ plaintext tradeId iv, config.encryptionService.decrypt
      (config.encryptionService.encrypt plaintext tradeId iv) tradeId =
        plainCipher.decrypt (plainCipher.encrypt plaintext tradeId iv) tradeId) :
    Unreadable config caller tradeId (noteStep config db a) ↔
      BlankPost config caller tradeId db a ∨
        (a ≠ .trade tradeId none ∧ Unreadable config caller tradeId db) := by
  rcases a with (⟨walletAddress, id, content, iv, now⟩ | ⟨walletAddress, id⟩) | ⟨other, parties⟩
  · have hpost := handle_post_cases config db walletAddress id content iv now
    obtain ⟨hdb, hanswer⟩ | ⟨author, hauthor, hanswer, hdb⟩ := hpost
    · simp [noteStep, hdb, BlankPost, hanswer]
    · have hblank : plainCipher.decrypt (plainCipher.encrypt (sanitizeString content) (noteTrade id)
          iv) (noteTrade id) = .error "Invalid encrypted payload" ↔ Text.trim content = "" := by
        rw [← sanitizeString_eq_empty_iff]
        simp [plainCipher]
      rw [noteStep, hdb]
      constructor
      · rintro ⟨note, hnote, htrade, hread, herror⟩
        obtain hnote | hnote := List.mem_append.1 hnote
        · exact .inr ⟨nofun, note, hnote, htrade, hread, herror⟩
        · obtain rfl := List.mem_singleton.1 hnote
          rw [reads] at herror
          exact .inl ⟨htrade, hblank.1 herror, ⟨_, _, hanswer⟩, author, hauthor, hread⟩
      · rintro (⟨htrade, hempty, -, author', hauthor', hread⟩ | ⟨-, note, hnote, hrest⟩)
        · obtain rfl := Option.mem_unique hauthor hauthor'
          refine ⟨_, List.mem_append_right _ (List.mem_singleton_self _), htrade, hread, ?_⟩
          rw [reads]
          exact hblank.2 hempty
        · exact ⟨note, List.mem_append_left _ hnote, hrest⟩
  · simp [noteStep, handle_get_fst, BlankPost]
  · cases parties with
    | some parties => simp [noteStep, BlankPost, Unreadable, NotesDatabase.putTrade]
    | none =>
      simp only [noteStep, BlankPost, false_or, ne_eq, NoteStep.trade.injEq, and_true, Unreadable,
        NotesDatabase.putTrade, Option.isSome_none, Bool.false_eq_true, if_false, List.mem_filter,
        decide_eq_true_eq]
      constructor
      · rintro ⟨note, ⟨hnote, hne⟩, rfl, hrest⟩
        exact ⟨fun h => hne h.symm, note, hnote, rfl, hrest⟩
      · rintro ⟨hne, note, hnote, rfl, hrest⟩
        exact ⟨note, ⟨hnote, fun h => hne h.symm⟩, rfl, hrest⟩

/-- A note cannot be read exactly when a note of blanks is among those that are kept. -/
theorem unreadable_run {config : NotesConfig} {caller : String}
    (reads : ∀ plaintext tradeId iv, config.encryptionService.decrypt
      (config.encryptionService.encrypt plaintext tradeId iv) tradeId =
        plainCipher.decrypt (plainCipher.encrypt plaintext tradeId iv) tradeId) :
    Unreadable config caller tradeId (run (noteStep config) .empty as) ↔
      Since (noteStep config) (BlankPost config caller tradeId)
        (fun _ a => a ≠ .trade tradeId none) .empty as := by
  induction as using List.reverseRecOn with
  | nil => exact iff_of_false (by simp [Unreadable, NotesDatabase.empty]) (not_since_nil _)
  | append_singleton as a ih => rw [run_snoc, unreadable_step reads, ih, since_snoc_iff]

/-- Every note is what was encrypted for its trade. -/
def Encrypted (cipher : NoteCipher) (db : NotesDatabase) : Prop :=
  ∀ note ∈ db.tradeNotes, ∃ plaintext iv, note.content = cipher.encrypt plaintext note.tradeId iv

theorem encrypted_run (config : NotesConfig) (as : List NoteStep) :
    Encrypted config.encryptionService (run (noteStep config) .empty as) := by
  refine run_invariant_of_step _ as (by simp [Encrypted, NotesDatabase.empty]) fun db a hdb => ?_
  rcases a with (⟨walletAddress, id, content, iv, now⟩ | ⟨walletAddress, id⟩) | ⟨other, parties⟩
  · have hpost := handle_post_cases config db walletAddress id content iv now
    obtain ⟨hsame, -⟩ | ⟨author, -, -, hnext⟩ := hpost
    · rwa [noteStep, hsame]
    · rw [noteStep, hnext]
      intro note hnote
      obtain hnote | hnote := List.mem_append.1 hnote
      · exact hdb note hnote
      · obtain rfl := List.mem_singleton.1 hnote
        exact ⟨_, _, rfl⟩
  · rwa [noteStep, handle_get_fst]
  · intro note hnote
    simp only [noteStep, NotesDatabase.putTrade] at hnote
    split at hnote
    · exact hdb note hnote
    · exact hdb note (List.mem_of_mem_filter hnote)

/-- Where there is one error only, it is the outcome exactly when some element has it. -/
theorem mapM_eq_error_iff {α β ε : Type} {f : α → Except ε β} {e : ε} {l : List α}
    (only : ∀ x ∈ l, ∀ e', f x = .error e' → e' = e) :
    l.mapM f = .error e ↔ ∃ x ∈ l, f x = .error e := by
  induction l with
  | nil => simp [pure, Except.pure]
  | cons x l ih =>
    rw [List.forall_mem_cons] at only
    rw [List.mapM_cons]
    cases hx : f x with
    | error e' =>
      obtain rfl := only.1 e' hx
      exact iff_of_true rfl ⟨x, List.mem_cons_self .., hx⟩
    | ok y =>
      have hrest : (∃ x' ∈ x :: l, f x' = .error e) ↔ ∃ x' ∈ l, f x' = .error e := by
        simp [hx]
      rw [hrest, ← ih only.2]
      cases l.mapM f <;> simp [bind, Except.bind, pure, Except.pure]

theorem viewNote_eq_error_iff {config : NotesConfig} {caller : String} {note : TradeNote}
    {error : NoteError} : viewNote config caller note = .error error ↔
      mayRead config.adminPubkeys caller note.authorAddress = true ∧
        ∃ message, config.encryptionService.decrypt note.content note.tradeId = .error message ∧
          encryptionError message = error := by
  by_cases h : mayRead config.adminPubkeys caller note.authorAddress = true
  · simp only [viewNote, h, if_true, true_and]
    cases config.encryptionService.decrypt note.content note.tradeId <;>
      simp [bind, Except.bind, pure, Except.pure]
  · simp [viewNote, h, bind, Except.bind, pure, Except.pure]

/-- Whether a listing is refused for who asks. -/
def mayList (config : NotesConfig) (db : NotesDatabase) (caller tradeId : String) : Bool :=
  (db.trades tradeId).any fun trade =>
    isParty trade caller || (getAdminAllowlistLowercase config.adminPubkeys).contains caller

theorem listNotes_eq_invalidPayload_iff {config : NotesConfig}
    (messages : ∀ note ∈ db.tradeNotes, ∀ message,
      config.encryptionService.decrypt note.content note.tradeId = .error message →
        message = "Invalid encrypted payload") :
    listNotes config db tradeId callerAddress = .error invalidPayload ↔
      mayList config db (Text.toLowerCase callerAddress) tradeId = true ∧
        Unreadable config (Text.toLowerCase callerAddress) tradeId db := by
  rw [listNotes, mayList]
  cases db.trades tradeId with
  | none => simp [tradeNoteNotFoundError, invalidPayload, encryptionError]
  | some trade =>
    by_cases hlist : (isParty trade (Text.toLowerCase callerAddress) ||
        (getAdminAllowlistLowercase config.adminPubkeys).contains
          (Text.toLowerCase callerAddress)) = true
    · have hguard : ¬ (!isParty trade (Text.toLowerCase callerAddress) &&
          !(getAdminAllowlistLowercase config.adminPubkeys).contains
            (Text.toLowerCase callerAddress)) = true := by
        rw [← Bool.not_or, hlist]
        decide
      have honly : ∀ note ∈ (db.tradeNotes.filter fun note => note.tradeId = tradeId).mergeSort
          (fun a b => b.createdAt ≤ a.createdAt), ∀ error,
          viewNote config (Text.toLowerCase callerAddress) note = .error error →
            error = invalidPayload := by
        intro note hnote error herror
        obtain ⟨-, message, hmessage, rfl⟩ := viewNote_eq_error_iff.1 herror
        have hmem := List.mem_of_mem_filter (List.mem_mergeSort.1 hnote)
        rw [messages note hmem message hmessage, invalidPayload]
      simp only [if_neg hguard, Option.any_some, hlist, true_and, mapM_eq_error_iff honly,
        List.mem_mergeSort, List.mem_filter, decide_eq_true_eq, viewNote_eq_error_iff]
      constructor
      · rintro ⟨note, ⟨hnote, htrade⟩, hread, message, hmessage, -⟩
        exact ⟨note, hnote, htrade, hread, messages note hnote message hmessage ▸ hmessage⟩
      · rintro ⟨note, hnote, htrade, hread, hmessage⟩
        exact ⟨note, ⟨hnote, htrade⟩, hread, _, hmessage, rfl⟩
    · have hguard : (!isParty trade (Text.toLowerCase callerAddress) &&
          !(getAdminAllowlistLowercase config.adminPubkeys).contains
            (Text.toLowerCase callerAddress)) = true := by
        rw [← Bool.not_or, Bool.eq_false_iff.2 hlist]
        rfl
      have hother : tradeNoteAccessDeniedError ≠ invalidPayload := by
        simp [tradeNoteAccessDeniedError, invalidPayload, encryptionError]
      simp only [if_pos hguard, Option.any_some, hlist, Except.error.injEq, hother]
      simp

/-- A listing fails for an empty note exactly when a note of blanks that its reader may read was
posted on the trade and the trade was not deleted since. -/
theorem blank_listing_iff {service : EncryptionService} (lawful : service.crypto.Lawful)
    (adminPubkeys : String) (as : List NoteStep) {walletAddress : Option String}
    {id caller : String} (named : Text.trim id ≠ "")
    (called : (NoteRequest.get walletAddress id).caller = some caller) :
    (handle ⟨noteCipher service, adminPubkeys⟩
        (run (noteStep ⟨noteCipher service, adminPubkeys⟩) .empty as)
        (.get walletAddress id)).2 = .failed invalidPayload ↔
      mayList ⟨noteCipher service, adminPubkeys⟩
          (run (noteStep ⟨noteCipher service, adminPubkeys⟩) .empty as) caller (noteTrade id) =
        true ∧
      Since (noteStep ⟨noteCipher service, adminPubkeys⟩)
        (BlankPost ⟨noteCipher service, adminPubkeys⟩ caller (noteTrade id))
        (fun _ a => a ≠ .trade (noteTrade id) none) .empty as := by
  have hreads := noteCipher_reads lawful
  have hmessages : ∀ note ∈ (run (noteStep ⟨noteCipher service, adminPubkeys⟩) .empty
      as).tradeNotes, ∀ message,
      (noteCipher service).decrypt note.content note.tradeId = .error message →
        message = "Invalid encrypted payload" := by
    intro note hnote message hmessage
    obtain ⟨plaintext, iv, hcontent⟩ := encrypted_run ⟨noteCipher service, adminPubkeys⟩ as note hnote
    rw [hcontent, hreads] at hmessage
    by_cases h : plaintext = "" <;> simp_all [plainCipher]
  obtain ⟨callerAddress, hwallet, rfl⟩ := Option.map_eq_some_iff.1 called
  rw [← unreadable_run hreads, ← listNotes_eq_invalidPayload_iff hmessages]
  simp only [handle, tradeIdParamSchema, named, if_false, hwallet, noteTrade]
  cases listNotes ⟨noteCipher service, adminPubkeys⟩
    (run (noteStep ⟨noteCipher service, adminPubkeys⟩) .empty as)
    (sanitizeString (Text.trim id)) callerAddress <;> simp

/-! ## A run -/

namespace Sample

def config : NotesConfig := ⟨noteCipher ⟨.clear, "secret"⟩, "GADMIN"⟩

def parties : Parties := ⟨"GBUYER", "GSELLER"⟩

/-- Both parties write, and the buyer asks. -/
def steps (sellersNote buyersNote : String) : List NoteStep :=
  [.trade "T1" (some parties), .request (.post (some "GSELLER") "T1" sellersNote .zeros 1),
    .request (.post (some "GBUYER") "T1" buyersNote .zeros 2)]

end Sample

theorem notes_refine_sample :
    answers Sample.config (Sample.steps "ok" "paid") =
      answers ⟨plainCipher, "GADMIN"⟩ (Sample.steps "ok" "paid") :=
  notes_refine Crypto.clear_lawful "GADMIN" (Sample.steps "ok" "paid")

theorem notes_private_sample :
    (answers Sample.config (Sample.steps "no" "paid")).filter
        (fun p => p.1.caller = some "gbuyer") =
      (answers Sample.config (Sample.steps "yes" "paid")).filter
        fun p => p.1.caller = some "gbuyer" :=
  notes_private Sample.config (by decide +kernel)
    (.cons (.same _) (.cons (.note _ _ _ _ _ _ _ (by decide +kernel) rfl rfl)
      (.cons (.same _) .nil)))

theorem blank_listing_sample :
    (handle Sample.config (run (noteStep Sample.config) .empty (Sample.steps "ok" "  "))
        (.get (some "GBUYER") "T1")).2 = .failed invalidPayload := by
  refine (blank_listing_iff Crypto.clear_lawful "GADMIN" (Sample.steps "ok" "  ")
    (by decide +kernel) (show (NoteRequest.get (some "GBUYER") "T1").caller = some "gbuyer" by
      decide +kernel)).2 ⟨by decide +kernel, [_, _], _, [], rfl, ?_, by simp⟩
  exact ⟨rfl, by decide +kernel, ⟨2, 2, rfl⟩, "gbuyer", by decide +kernel, by decide +kernel⟩

end Amana.Backend.TradeNotes
