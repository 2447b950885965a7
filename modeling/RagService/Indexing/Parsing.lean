import RagService.Indexing.Chunking
import RagService.Store.Model

/-!
# Parsing uploaded files
-/

namespace RagService
namespace Parsing

open Text

def supportedDocumentSuffixes : List Text :=
  ["txt".toList, "md".toList, "docx".toList, "pdf".toList]

def lstripBytes (data : Bytes) : Bytes :=
  data.dropWhile fun b => (9 ≤ b && b ≤ 13) || b == 32

/-- The loop over the pages: the page texts kept, or the error of too much text. -/
def pageTexts (maxChars : Nat) : Nat -> Nat -> List Text -> Except Exception (List Text)
  | _, _, [] => .ok []
  | pageNumber, textCount, page :: pages =>
      let text := strip page
      if text.isEmpty then pageTexts maxChars (pageNumber + 1) textCount pages
      else if maxChars < textCount + text.length then
        .error (.value ("PDF 正文不能超过 ".toList ++ decimal maxChars ++ " 个字符".toList))
      else do
        let rest ← pageTexts maxChars (pageNumber + 1) (textCount + text.length) pages
        return ("第 ".toList ++ decimal pageNumber ++ " 页\n".toList ++ text) :: rest

def parsePdf (env : Env) (cfg : Settings) (data : Bytes) : Except Exception Text := do
  if !(lstripBytes data).take 5 == encode "%PDF-".toList then
    throw (.value "PDF 文件签名无效".toList)
  let (isEncrypted, pages) ← env.pdfPages data
  if isEncrypted then
    throw (.value "不支持加密 PDF".toList)
  if cfg.pdfMaxPages < pages.length then
    throw (.value ("PDF 页数不能超过 ".toList ++ decimal cfg.pdfMaxPages ++ " 页".toList))
  let texts ← pageTexts cfg.pdfMaxTextChars 1 0 pages
  if texts.isEmpty then
    throw (.value "PDF 未包含可提取文本，暂不支持扫描件或 OCR".toList)
  return join ['\n', '\n'] texts

def parseDocument (env : Env) (cfg : Settings) (filename : Text) (data : Bytes) :
    Except Exception Text := do
  let suffix := lowerAscii ((afterLast '.' filename).getD filename)
  let parsed ←
    if suffix = "txt".toList ∨ suffix = "md".toList then pure (decode data)
    else if suffix = "docx".toList then
      (env.docxParagraphs data).map fun texts =>
        join ['\n', '\n'] (texts.filter fun text => !(strip text).isEmpty)
    else if suffix = "pdf".toList then parsePdf env cfg data
    else throw (.value "不支持的文件类型".toList)
  return Chunking.cleanText parsed

end Parsing
end RagService
