import RagService.Store.Model

/-!
# Classifying failures

Which indexing failures are retried, and the summaries that are stored in place of
the text of an exception.
-/

namespace RagService
namespace Failures

open Text

def isRetryableIndexError : Exception -> Bool
  | .httpStatus code => [401, 403, 408, 425, 429].contains code || 500 ≤ code
  | .httpTimeout | .httpTransport | .database => true
  | .os => true
  | _ => false

def safePrefixes : List Text :=
  ["PDF ".toList, "不支持加密 PDF".toList, "不支持的文件类型".toList, "文档没有可索引正文".toList,
    "Embedding 返回向量数量或维度不匹配".toList]

def sanitizeIndexError : Exception -> Text
  | .httpStatus code => "模型服务请求失败（HTTP ".toList ++ decimal code ++ "）".toList
  | .httpTimeout => "模型服务请求超时".toList
  | .httpTransport => "模型服务连接失败".toList
  | .fileNotFound => "原始文档不存在".toList
  | .value message =>
      if safePrefixes.any fun p => p.isPrefixOf message then message.take 512
      else "文档内容无法索引".toList
  | .database => "索引数据库操作失败".toList
  | .os => "对象存储访问失败".toList
  | .request _ => "文档索引失败（RequestError）".toList
  | .notFound _ => "文档索引失败（NotFoundError）".toList
  | .server _ => "文档索引失败（ServerError）".toList
  | .other name => "文档索引失败（".toList ++ name ++ "）".toList

def sanitizeDispatchError : Exception -> Text
  | .os | .fileNotFound => "任务投递失败：消息中间件连接异常".toList
  | .value _ => "任务投递失败：事件类型或载荷不受支持".toList
  | .httpStatus _ => "任务投递失败（HTTPStatusError）".toList
  | .httpTimeout => "任务投递失败（TimeoutException）".toList
  | .httpTransport => "任务投递失败（TransportError）".toList
  | .database => "任务投递失败（SQLAlchemyError）".toList
  | .request _ => "任务投递失败（RequestError）".toList
  | .notFound _ => "任务投递失败（NotFoundError）".toList
  | .server _ => "任务投递失败（ServerError）".toList
  | .other name => "任务投递失败（".toList ++ name ++ "）".toList

end Failures
end RagService
