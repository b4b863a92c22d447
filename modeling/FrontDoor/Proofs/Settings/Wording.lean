import FrontDoor.Proofs.Address.Socket
import FrontDoor.Proofs.CommandLine.Invocations
import FrontDoor.Proofs.Settings.Precedence
import FrontDoor.Proofs.Toml.Pairs

/-!
# By flag or by file

A text is taken for a setting alike whether a flag gives it or the one entry of a file, and makes
the same settings. In particular every address is taken as it is written (`flag_agrees_with_file`).
-/

namespace FrontDoor.CommandLine.Invocation

/-- The settings with which a command line starts a node, if it starts one. -/
def settings? (files : String → Except SystemError Bytes) (words : List String) :
    Option Settings :=
  match read words with
  | .ok ⟨_, .serve flags⟩ => (flags.resolve files).toOption
  | _ => none

end FrontDoor.CommandLine.Invocation

namespace FrontDoor.Settings

open CommandLine Toml

/-- A setting that is told by a text. -/
inductive Worded where
  | httpAddr
  | metricsAddr
  | nodeId

namespace Worded

/-- The name of the setting on the command line. -/
def flag : Worded → String
  | httpAddr => "http-addr"
  | metricsAddr => "metrics-addr"
  | nodeId => "node-id"

/-- The name of the setting in a file. -/
def entry : Worded → String
  | httpAddr => "http_addr"
  | metricsAddr => "metrics_addr"
  | nodeId => "node_id"

/-- The default settings but for this one, which a text tells. -/
def settings? : Worded → String → Option Settings
  | httpAddr, s => (SocketAddress.read? s).map fun a => { default with httpAddr := a }
  | metricsAddr, s => (SocketAddress.read? s).map fun a => { default with metricsAddr := a }
  | nodeId, s => some { default with nodeId := s }

/-- The default settings but for this one, which is an address or the text of one. -/
def withAddress : Worded → SocketAddress → Settings
  | httpAddr, a => { default with httpAddr := a }
  | metricsAddr, a => { default with metricsAddr := a }
  | nodeId, a => { default with nodeId := a.text }

theorem settings?_text (w : Worded) (a : SocketAddress) :
    w.settings? a.text = some (w.withAddress a) := by
  cases w with
  | httpAddr | metricsAddr => rw [settings?, SocketAddress.read?_text]; rfl
  | nodeId => rfl

/-! ## On the command line -/

def option : Worded → ValueOption ServeFlags
  | httpAddr => ServeFlags.httpAddrOption
  | metricsAddr => ServeFlags.metricsAddrOption
  | nodeId => ServeFlags.nodeIdOption

theorem option_mem (w : Worded) : .value w.option ∈ ServeFlags.options := by
  cases w <;> simp [option, ServeFlags.options]

/-- What the option of a setting makes of the default settings. -/
theorem resolve_put (w : Worded) (s : String) (files : String → Except SystemError Bytes) :
    ((Given.value w.option s).put .empty).toOption.bind
      (fun flags => (flags.resolve files).toOption) = w.settings? s := by
  have hput : (Given.value w.option s).put .empty =
      (w.option.accept s .empty).mapError (.badValue s w.option.usage) := by
    cases w <;> simp [Given.put, ValueOption.give, option, ServeFlags.httpAddrOption,
      ServeFlags.metricsAddrOption, ServeFlags.nodeIdOption, ServeFlags.empty]
  rw [hput]
  cases w with
  | httpAddr =>
    rw [settings?, option, ServeFlags.httpAddrOption]
    dsimp only
    rw [ServeFlags.readAddress]
    cases SocketAddress.read? s <;> rfl
  | metricsAddr =>
    rw [settings?, option, ServeFlags.metricsAddrOption]
    dsimp only
    rw [ServeFlags.readAddress]
    cases SocketAddress.read? s <;> rfl
  | nodeId => rfl

theorem settings?_flag (w : Worded) (s : String) (files : String → Except SystemError Bytes) :
    Invocation.settings? files ["serve", "--" ++ w.flag ++ "=" ++ s] = w.settings? s := by
  have hspelled : (Given.value w.option s).Spelled ["--" ++ w.flag ++ "=" ++ s] := by
    cases w <;> exact .attached
  have hknown : Known ServeFlags.options (Given.value w.option s).opt :=
    ServeFlags.known w.option_mem
  have hread := Reading.readAll_of_spelled hknown hspelled .empty
  have hserve := Invocation.read_serve .nothing ["--" ++ w.flag ++ "=" ++ s]
  rw [List.nil_append, Invocation.ofCommand, hread] at hserve
  rw [Invocation.settings?, hserve, ← resolve_put w s files]
  cases (Given.value w.option s).put .empty <;> rfl

/-! ## In a file -/

theorem bareKey_entry (w : Worded) : BareKey w.entry.toList where
  ne_nil := by cases w <;> decide
  chars := List.all_eq_true.mp (by cases w <;> decide)

/-- What the entry of a setting makes of the default settings. -/
theorem apply_entry (w : Worded) (s : String) :
    (default.apply w.entry (.string s)).toOption = w.settings? s := by
  cases w with
  | httpAddr =>
    rw [settings?, apply, entry, if_pos rfl, asAddress]
    cases SocketAddress.read? s <;> rfl
  | metricsAddr =>
    rw [settings?, apply, entry, if_neg (by decide), if_pos rfl, asAddress]
    cases SocketAddress.read? s <;> rfl
  | nodeId => rfl

theorem settings?_file (w : Worded) {s : String} {line : List Char} {path : String}
    {files : String → Except SystemError Bytes} (hline : PairText w.entry.toList s line)
    (hfile : files path = .ok (Utf8.encode line)) :
    (ServeFlags.resolve { ServeFlags.empty with config := some path } files).toOption =
      w.settings? s := by
  obtain ⟨place, hentries⟩ := readEntries?_pairText w.bareKey_entry hline
  have hload := load_encode path (String.ofList line)
  rw [String.toList_ofList, ofText, String.toList_ofList, hentries] at hload
  rw [ServeFlags.resolve]
  dsimp only at hload ⊢
  rw [hfile, hload, ofEntries, String.ofList_toList, ← apply_entry]
  -- Flags that give nothing leave the settings of the file as they are.
  rw [List.foldlM_cons]
  dsimp only
  cases default.apply w.entry (.string s) <;> rfl

end Worded

/-- **By flag or by file, a text makes the same settings.** The text stands behind the name of the
setting on the command line, or in a basic string of the only line of a file, spelled in any way;
every text has such a line. Both are taken or neither is, and then the settings are the same. An
address is taken as it is written, and set as it is. -/
theorem flag_agrees_with_file (w : Worded) (s : String) (path : String)
    (files : String → Except SystemError Bytes) :
    (∃ line, PairText w.entry.toList s line) ∧
      ∀ line, PairText w.entry.toList s line → files path = .ok (Utf8.encode line) →
        Invocation.settings? files ["serve", "--" ++ w.flag ++ "=" ++ s] =
            (ServeFlags.resolve ⟨some path, none, none, none, false, false⟩ files).toOption ∧
          ∀ a : SocketAddress, s = a.text →
            Invocation.settings? files ["serve", "--" ++ w.flag ++ "=" ++ s] =
              some (w.withAddress a) := by
  refine ⟨⟨_, .mk (stringText_writeString s) .nothing⟩, fun line hline hfile => ?_⟩
  have hflag := w.settings?_flag s files
  refine ⟨hflag.trans (w.settings?_file hline hfile).symm, ?_⟩
  rintro a rfl
  rw [hflag, w.settings?_text a]

/-- An address that stands for another, with a scope; in the file one of its characters is spelled
by its number. -/
theorem flag_agrees_with_file_on_a_scoped_address :
    let a : SocketAddress := .v6 ⟨[0, 0, 0, 0, 0, 0xFFFF, 0x102, 0x304], rfl⟩ 7 80
    let line := "http_addr = \"\\u005B::ffff:1.2.3.4%7]:80\"\r\n".toList
    let files (_ : String) : Except SystemError Bytes := .ok (Utf8.encode line)
    a.text = "[::ffff:1.2.3.4%7]:80" ∧
      PairText Worded.httpAddr.entry.toList a.text line ∧
      Invocation.settings? files ["serve", "--http-addr=[::ffff:1.2.3.4%7]:80"] =
        some { default with httpAddr := a } ∧
      (ServeFlags.resolve ⟨some "config", none, none, none, false, false⟩ files).toOption =
        some { default with httpAddr := a } := by
  intro a line files
  have htext : a.text = "[::ffff:1.2.3.4%7]:80" := by decide +kernel
  have hbracket : CharText ['\\', 'u', '0', '0', '5', 'B'] '[' := .four rfl rfl
  have hchars : CharsText
      (['\\', 'u', '0', '0', '5', 'B'] ++ "::ffff:1.2.3.4%7]:80".toList.flatMap writeChar)
      ('[' :: "::ffff:1.2.3.4%7]:80".toList) := .cons hbracket (charsText_flatMap _)
  have hlist : a.text.toList = '[' :: "::ffff:1.2.3.4%7]:80".toList := by
    rw [htext]
    decide
  have hline : PairText Worded.httpAddr.entry.toList a.text line := by
    have hsplit : line = Worded.httpAddr.entry.toList ++ ' ' :: '=' :: ' ' ::
        ('"' :: (['\\', 'u', '0', '0', '5', 'B'] ++
          "::ffff:1.2.3.4%7]:80".toList.flatMap writeChar ++ ['"']) ++ ['\r', '\n']) := by
      decide +kernel
    rw [hsplit]
    exact .mk (.mk (hlist ▸ hchars)) .crlf
  have hfile : files "config" = .ok (Utf8.encode line) := rfl
  obtain ⟨-, hagree⟩ := flag_agrees_with_file .httpAddr a.text "config" files
  obtain ⟨hsame, haddress⟩ := hagree line hline hfile
  have hflag := haddress a rfl
  rw [hflag] at hsame
  rw [htext] at hflag
  exact ⟨htext, hline, hflag, hsame.symm⟩

end FrontDoor.Settings
